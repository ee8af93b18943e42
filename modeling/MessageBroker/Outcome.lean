import MessageBroker.Delivery

/-! What is left after an operation, whether it succeeds or fails. -/

namespace MessageBroker

/-- The state after an operation, its result, and the signals it gave, in
order. -/
structure Outcome (σ : Type u) (ε : Type v) (α : Type w) where
  state : σ
  result : Except ε α
  signals : List Signal

namespace Outcome

def refused (state : σ) (error : ε) : Outcome σ ε α where
  state := state
  result := .error error
  signals := []

def done (state : σ) (value : α) : Outcome σ ε α where
  state := state
  result := .ok value
  signals := []

/-- The same outcome seen as one of a larger state, with its result put into
other words. -/
def lift (outcome : Outcome σ ε α) (widen : σ → τ) (error : ε → δ)
    (value : α → β) : Outcome τ δ β where
  state := widen outcome.state
  result :=
    match outcome.result with
    | .ok result => .ok (value result)
    | .error cause => .error (error cause)
  signals := outcome.signals

@[simp] theorem state_refused (state : σ) (error : ε) :
    (refused state error : Outcome σ ε α).state = state := rfl

@[simp] theorem result_refused (state : σ) (error : ε) :
    (refused state error : Outcome σ ε α).result = .error error := rfl

@[simp] theorem signals_refused (state : σ) (error : ε) :
    (refused state error : Outcome σ ε α).signals = [] := rfl

@[simp] theorem state_done (state : σ) (value : α) :
    (done state value : Outcome σ ε α).state = state := rfl

@[simp] theorem result_done (state : σ) (value : α) :
    (done state value : Outcome σ ε α).result = .ok value := rfl

@[simp] theorem signals_done (state : σ) (value : α) :
    (done state value : Outcome σ ε α).signals = [] := rfl

end Outcome

end MessageBroker
