import MessageBroker.Bytes

/-! Values of the MessagePack format, read from bytes. -/

namespace MessageBroker.MessagePack

inductive Value where
  | null
  | boolean (value : Bool)
  | unsigned (value : Nat)
  | signed (value : Int)
  /-- A text, which need not be valid UTF-8. -/
  | text (bytes : List UInt8)
  | binary (bytes : List UInt8)
  | array (items : List Value)
  | map (entries : List (Value × Value))
  | real (bytes : List UInt8)
  /-- A value of some application's own kind. -/
  | extension (bytes : List UInt8)

/-- What comes before the contents of a value. -/
inductive Header where
  | leaf (value : Value)
  | unsigned (width : Nat)
  | signed (width : Nat)
  | real (width : Nat)
  | text (size : Nat)
  | binary (size : Nat)
  | array (size : Nat)
  | map (size : Nat)
  | extension (size : Nat)

/-- A header whose size follows in so many bytes. -/
def sized (width : Nat) (header : Nat → Header) (bytes : List UInt8) :
    Option (Header × List UInt8) :=
  (Bytes.split? width bytes).map fun (size, rest) =>
    (header (Bytes.ofBigEndian size), rest)

def readHeader? : List UInt8 → Option (Header × List UInt8)
  | [] => none
  | marker :: rest =>
      let code := marker.toNat
      if code < 0x80 then some (.leaf (.unsigned code), rest)
      else if code < 0x90 then some (.map (code - 0x80), rest)
      else if code < 0xa0 then some (.array (code - 0x90), rest)
      else if code < 0xc0 then some (.text (code - 0xa0), rest)
      else if code < 0xe0 then
        match code with
        | 0xc0 => some (.leaf .null, rest)
        | 0xc2 => some (.leaf (.boolean false), rest)
        | 0xc3 => some (.leaf (.boolean true), rest)
        | 0xc4 => sized 1 .binary rest
        | 0xc5 => sized 2 .binary rest
        | 0xc6 => sized 4 .binary rest
        | 0xc7 => sized 1 .extension rest
        | 0xc8 => sized 2 .extension rest
        | 0xc9 => sized 4 .extension rest
        | 0xca => some (.real 4, rest)
        | 0xcb => some (.real 8, rest)
        | 0xcc => some (.unsigned 1, rest)
        | 0xcd => some (.unsigned 2, rest)
        | 0xce => some (.unsigned 4, rest)
        | 0xcf => some (.unsigned 8, rest)
        | 0xd0 => some (.signed 1, rest)
        | 0xd1 => some (.signed 2, rest)
        | 0xd2 => some (.signed 4, rest)
        | 0xd3 => some (.signed 8, rest)
        | 0xd4 => some (.extension 1, rest)
        | 0xd5 => some (.extension 2, rest)
        | 0xd6 => some (.extension 4, rest)
        | 0xd7 => some (.extension 8, rest)
        | 0xd8 => some (.extension 16, rest)
        | 0xd9 => sized 1 .text rest
        | 0xda => sized 2 .text rest
        | 0xdb => sized 4 .text rest
        | 0xdc => sized 2 .array rest
        | 0xdd => sized 4 .array rest
        | 0xde => sized 2 .map rest
        | 0xdf => sized 4 .map rest
        | _ => none
      else some (.leaf (.signed (code - 256)), rest)

/-- Bytes as a number in two's complement. -/
def ofTwosComplement (bytes : List UInt8) : Int :=
  let number := Bytes.ofBigEndian bytes
  let limit := Bytes.limit bytes.length
  if number < limit / 2 then .ofNat number else Int.subNatNat number limit

def readMany (read : List UInt8 → Option (α × List UInt8)) :
    Nat → List UInt8 → Option (List α × List UInt8)
  | 0, bytes => some ([], bytes)
  | count + 1, bytes =>
      (read bytes).bind fun (item, rest) =>
        (readMany read count rest).map fun (items, rest) => (item :: items, rest)

def readPair (read : List UInt8 → Option (α × List UInt8))
    (bytes : List UInt8) : Option ((α × α) × List UInt8) :=
  (read bytes).bind fun (first, rest) =>
    (read rest).map fun (second, rest) => ((first, second), rest)

def readLeaf (size : Nat) (value : List UInt8 → Value) (bytes : List UInt8) :
    Option (Value × List UInt8) :=
  (Bytes.split? size bytes).map fun (contents, rest) => (value contents, rest)

/-- The contents of a value, with a way to read the values inside it if there
may be any. An extension begins with a byte that tells its kind. -/
def Header.contents? (inner? : Option (List UInt8 → Option (Value × List UInt8)))
    (bytes : List UInt8) : Header → Option (Value × List UInt8)
  | .leaf value => some (value, bytes)
  | .unsigned width =>
      readLeaf width (fun contents => .unsigned (Bytes.ofBigEndian contents)) bytes
  | .signed width =>
      readLeaf width (fun contents => .signed (ofTwosComplement contents)) bytes
  | .real width => readLeaf width .real bytes
  | .text size => readLeaf size .text bytes
  | .binary size => readLeaf size .binary bytes
  | .array size =>
      inner?.bind fun inner =>
        (readMany inner size bytes).map fun (items, rest) => (.array items, rest)
  | .map size =>
      inner?.bind fun inner =>
        (readMany (readPair inner) size bytes).map fun (entries, rest) =>
          (.map entries, rest)
  | .extension size =>
      inner?.bind fun _ => readLeaf (size + 1) .extension bytes

/-- Read a value that has at most so many levels of arrays, maps and extensions
inside each other. -/
def read? : Nat → List UInt8 → Option (Value × List UInt8)
  | 0, bytes =>
      (readHeader? bytes).bind fun (header, rest) => header.contents? none rest
  | levels + 1, bytes =>
      (readHeader? bytes).bind fun (header, rest) =>
        header.contents? (some (read? levels)) rest

/-- The most levels a value may have. -/
def maxLevels : Nat := 1023

def decode? (bytes : List UInt8) : Option Value :=
  (read? maxLevels bytes).map Prod.fst

end MessageBroker.MessagePack
