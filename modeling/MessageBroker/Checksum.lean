/-! Cyclic redundancy checks of 32 bits, over bytes whose lowest bit comes
first. -/

namespace MessageBroker.Checksum

def polynomial : UInt32 := 0xEDB88320

def shift (register : UInt32) : UInt32 :=
  if register &&& 1 = 1 then (register >>> 1) ^^^ polynomial
  else register >>> 1

def absorb (register : UInt32) (byte : UInt8) : UInt32 :=
  Nat.repeat shift 8 (register ^^^ byte.toUInt32)

def ofBytes (bytes : List UInt8) : UInt32 :=
  ~~~ (bytes.foldl absorb 0xFFFFFFFF)

end MessageBroker.Checksum
