import PartitionSnapshot.Json.Scanner

/-!
# Passing over JSON values

A value that nobody wants is passed over: it has to be well formed, but its numbers may have any
size, its strings need not be text, and it may be nested to any depth. The arrays and objects that
are open are kept on a stack.
-/

namespace PartitionSnapshot.Json

/-- An array or object that is open. -/
inductive Frame where
  | array
  | object
  deriving DecidableEq, Repr

/-- What may come next. -/
inductive Awaiting where
  | value
  /-- Behind the mark that opens the innermost array or object. -/
  | firstPart
  /-- Behind a value. -/
  | separator
  deriving DecidableEq, Repr

/-- The cause when a text ends inside an array or object. -/
def Frame.endCause : Frame → Cause
  | .array => .endInArray
  | .object => .endInObject

/-- The cause when neither a comma nor the end of the array or object follows a value. -/
def Frame.separatorCause : Frame → Cause
  | .array => .noElementEnd
  | .object => .noMemberEnd

/-- The mark that closes an array or object. -/
def Frame.closing : Frame → UInt8
  | .array => 0x5D
  | .object => 0x7D

/-- Passes over a word, a string or a number. -/
def passScalar : Bytes → Except Stop Bytes
  | [] => .error ⟨.endInValue, []⟩
  | byte :: rest =>
    if byte = 0x6E then passWord "null" (byte :: rest)
    else if byte = 0x74 then passWord "true" (byte :: rest)
    else if byte = 0x66 then passWord "false" (byte :: rest)
    else if byte = 0x2D then passNumber rest
    else if isDigitByte byte then passNumber (byte :: rest)
    else if byte = 0x22 then passInside rest
    else .error ⟨.noValue, rest⟩

/-- Passes over the colon behind a name. -/
def passColon (text : Bytes) : Except Stop Bytes :=
  match afterBlanks text with
  | [] => .error ⟨.endInObject, []⟩
  | byte :: rest => if byte = 0x3A then .ok rest else .error ⟨.noColon, rest⟩

/-- Passes over the name of a member and the colon behind it. -/
def passName (text : Bytes) : Except Stop Bytes :=
  match afterBlanks text with
  | [] => .error ⟨.endInObject, []⟩
  | byte :: rest =>
    if byte = 0x22 then (passInside rest).bind passColon else .error ⟨.nameNotString, rest⟩

/-- Passes over what is in front of a further part of an array or object: nothing, or a name. -/
def Frame.passFront : Frame → Bytes → Except Stop Bytes
  | .array, text => .ok text
  | .object, text => passName text

/-- Passes over the rest of a value, which takes at most so many steps. -/
def passFrom : (steps : Nat) → Awaiting → List Frame → Bytes → Except Stop Bytes
  | 0, _, _, _ => .error ⟨.endInValue, []⟩
  | steps + 1, .value, stack, text =>
    match afterBlanks text with
    | [] => .error ⟨.endInValue, []⟩
    | byte :: rest =>
      if byte = 0x5B then passFrom steps .firstPart (.array :: stack) rest
      else if byte = 0x7B then passFrom steps .firstPart (.object :: stack) rest
      else
        match passScalar (byte :: rest) with
        | .ok rest => passFrom steps .separator stack rest
        | .error stop => .error stop
  | steps + 1, .firstPart, frame :: stack, text =>
    match afterBlanks text with
    | [] => .error ⟨frame.endCause, []⟩
    | byte :: rest =>
      if byte = frame.closing then passFrom steps .separator stack rest
      else
        match frame.passFront (byte :: rest) with
        | .ok rest => passFrom steps .value (frame :: stack) rest
        | .error stop => .error stop
  | steps + 1, .separator, frame :: stack, text =>
    match afterBlanks text with
    | [] => .error ⟨frame.endCause, []⟩
    | byte :: rest =>
      if byte = frame.closing then passFrom steps .separator stack rest
      else if byte = 0x2C then
        match frame.passFront rest with
        | .ok rest => passFrom steps .value (frame :: stack) rest
        | .error stop => .error stop
      else .error ⟨frame.separatorCause, rest⟩
  | _ + 1, _, [], text => .ok text

/-- Passes over a value. -/
def Scanner.passValue : Scanner Unit := do
  pass (passFrom (← read) .value [])

end PartitionSnapshot.Json
