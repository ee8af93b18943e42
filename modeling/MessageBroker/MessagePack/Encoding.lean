import MessageBroker.Bytes
import MessageBroker.Text.Utf8

/-! MessagePack forms of the values that are written, each the shortest there
is. -/

namespace MessageBroker.MessagePack

def encodeNull : List UInt8 :=
  [0xc0]

def encodeBoolean (value : Bool) : List UInt8 :=
  [if value then 0xc3 else 0xc2]

def encodeUnsigned (number : Nat) : List UInt8 :=
  if number < 0x80 then [.ofNat number]
  else if number < 0x100 then 0xcc :: Bytes.bigEndian 1 number
  else if number < 0x10000 then 0xcd :: Bytes.bigEndian 2 number
  else if number < 0x100000000 then 0xce :: Bytes.bigEndian 4 number
  else 0xcf :: Bytes.bigEndian 8 number

def textHeader (size : Nat) : List UInt8 :=
  if size < 0x20 then [.ofNat (0xa0 + size)]
  else if size < 0x100 then 0xd9 :: Bytes.bigEndian 1 size
  else if size < 0x10000 then 0xda :: Bytes.bigEndian 2 size
  else 0xdb :: Bytes.bigEndian 4 size

def encodeText (text : String) : List UInt8 :=
  let bytes := Text.toUtf8 text
  textHeader bytes.length ++ bytes

def arrayHeader (size : Nat) : List UInt8 :=
  if size < 0x10 then [.ofNat (0x90 + size)]
  else if size < 0x10000 then 0xdc :: Bytes.bigEndian 2 size
  else 0xdd :: Bytes.bigEndian 4 size

def encodeArray (items : List (List UInt8)) : List UInt8 :=
  arrayHeader items.length ++ items.flatten

end MessageBroker.MessagePack
