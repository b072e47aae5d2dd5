import PartitionSnapshot.Json.Passing

/-!
# Reading JSON

A reader is a scanner for the type that is wanted: what stands in the text is read as a value of
this type or refused. A record of named fields is read from an object, whose members may come in any
order beside others, or from an array, whose elements are the fields in their order.

The functions that read what may repeat count down a number of steps; `decode` gives them more than
the length of the text can use up.
-/

namespace PartitionSnapshot.Json

namespace Scanner

/-! ## Scalars -/

/-- Stops at a value that is not of the type that is wanted. -/
def wrongType (wanted : String) : Scanner α := do
  match ← head? with
  | some 0x6E => word "null"; stop (.wrongType .null wanted)
  | some 0x74 => word "true"; stop (.wrongType (.bool true) wanted)
  | some 0x66 => word "false"; stop (.wrongType (.bool false) wanted)
  | some 0x22 => stop (.wrongType (.string (← quoted)) wanted)
  | some 0x5B => stop (.wrongType .array wanted)
  | some 0x7B => stop (.wrongType .object wanted)
  | some 0x2D =>
    skip
    let found ← number true
    stop (.wrongType found.found wanted)
  | some byte =>
    if isDigitByte byte then
      let found ← number false
      stop (.wrongType found.found wanted)
    else stopBehind .noValue
  | none => stop .endInValue

/-- Takes a number as a natural number of 64 bits. -/
def naturalOf (wanted : String) : Number → Scanner UInt64
  | .natural value => return UInt64.ofNat value
  | .negative magnitude => stop (.outsideRange (.negative magnitude) wanted)
  | number => stop (.wrongType number.found wanted)

/-- Reads a natural number of 64 bits. -/
def natural (wanted : String) : Scanner UInt64 := do
  match ← next? with
  | none => stop .endInValue
  | some byte =>
    if byte = 0x2D then
      skip
      naturalOf wanted (← number true)
    else if isDigitByte byte then naturalOf wanted (← number false)
    else wrongType wanted

/-- Reads a truth value. -/
def bool : Scanner Bool := do
  match ← next? with
  | none => stop .endInValue
  | some byte =>
    if byte = 0x74 then
      word "true"
      return true
    else if byte = 0x66 then
      word "false"
      return false
    else wrongType "a boolean"

/-- Reads a string that is Unicode text. -/
def text : Scanner String := do
  match ← next? with
  | none => stop .endInValue
  | some byte => if byte = 0x22 then quoted else wrongType "a string"

/-! ## Marks -/

/-- Reads the colon behind a name. -/
def colon : Scanner Unit := pass passColon

/-- Reads up to the next element of an array, and says whether there is one. -/
def nextElement (isFirst : Bool) : Scanner Bool := do
  match ← next? with
  | none => stop .endInArray
  | some byte =>
    if byte = 0x5D then return false
    else if isFirst then return true
    else if byte = 0x2C then
      skip
      match ← next? with
      | none => stop .endInValue
      | some byte => if byte = 0x5D then stopBehind .trailingComma else return true
    else stopBehind .noElementEnd

/-- Reads the name of the next member of an object, if there is one. -/
def nextName? (isFirst : Bool) : Scanner (Option String) := do
  match ← next? with
  | none => stop .endInObject
  | some byte =>
    if byte = 0x7D then return none
    else if isFirst then
      if byte = 0x22 then return some (← quoted) else stopBehind .nameNotString
    else if byte = 0x2C then
      skip
      match ← next? with
      | none => stop .endInValue
      | some byte =>
        if byte = 0x22 then return some (← quoted)
        else if byte = 0x7D then stopBehind .trailingComma
        else stopBehind .nameNotString
    else stopBehind .noMemberEnd

/-- Reads the end of an array. -/
def endArray : Scanner Unit := do
  match ← next? with
  | none => stop .endInArray
  | some byte =>
    if byte = 0x5D then skip
    else if byte = 0x2C then
      skip
      match ← next? with
      | some 0x5D => stopBehind .trailingComma
      | _ => stopBehind .trailingCharacters
    else stopBehind .trailingCharacters

/-- Passes over a closing mark, if it comes next. -/
def passClosing (mark : UInt8) : Scanner Unit := do
  if (← next?) == some mark then skip

/-! ## Choices and lists -/

/-- Finds the choice with a name, which was just read. -/
def choiceNamed (choices : List (String × α)) (name : String) : Scanner α :=
  match choices.lookup name with
  | some choice => return choice
  | none => stop (.unknownChoice name (choices.map (·.1)))

/-- Reads the null that goes with the name of a choice. -/
def choiceNull : Scanner Unit := do
  match ← next? with
  | none => stop .endInValue
  | some byte => if byte = 0x6E then word "null" else wrongType "unit"

/-- Reads one of the named choices: its name, or an object whose only member has that name and holds
null. -/
def choice (choices : List (String × α)) : Scanner α := do
  match ← next? with
  | none => stop .endInValue
  | some byte =>
    if byte = 0x22 then choiceNamed choices (← quoted)
    else if byte = 0x7B then
      skip
      let found ← choiceNamed choices (← text)
      colon
      choiceNull
      match ← next? with
      | none => stop .endInObject
      | some byte =>
        if byte = 0x7D then
          skip
          return found
        else stop .noValue
    else stopBehind .noValue

/-- Reads the rest of the elements of an array; `done` are those read so far, in reverse. -/
def elementsFrom (element : Scanner α) : (steps : Nat) → (done : List α) → Scanner (List α)
  | 0, _ => stop .endInArray
  | steps + 1, done => do
    if ← nextElement done.isEmpty then
      let value ← element
      elementsFrom element steps (value :: done)
    else return done.reverse

/-- Reads an array of elements that are read alike. -/
def list (element : Scanner α) : Scanner (List α) := do
  match ← next? with
  | none => stop .endInValue
  | some byte =>
    if byte = 0x5B then
      skip
      let elements ← elementsFrom element (← read) []
      endArray
      return elements
    else wrongType "a sequence"

end Scanner

/-! ## Records of named fields -/

/-- A field of a record that is read into a draft. -/
structure Field (δ : Type) where
  name : String
  isRequired : Bool
  /-- Reads the value of the field into a draft. -/
  read : δ → Scanner δ

/-- A field that has to be there. -/
def Field.required (name : String) (value : Scanner α) (set : δ → α → δ) : Field δ :=
  ⟨name, true, fun draft => do return set draft (← value)⟩

/-- A field that may be missing. -/
def Field.optional (name : String) (value : Scanner α) (set : δ → α → δ) : Field δ :=
  ⟨name, false, fun draft => do return set draft (← value)⟩

namespace Scanner

/-- Reads the rest of the members of an object into a draft; `seen` are the names of the fields read
so far. What is wrong with the members as a whole is given back. -/
def members (fields : List (Field δ)) :
    (steps : Nat) → (isFirst : Bool) → (seen : List String) → δ → Scanner (Except Cause δ)
  | 0, _, _, _ => stop .endInObject
  | steps + 1, isFirst, seen, draft => do
    match ← nextName? isFirst with
    | none =>
      match fields.find? fun field => field.isRequired && !seen.contains field.name with
      | some field => return .error (.missing field.name)
      | none => return .ok draft
    | some name =>
      match fields.find? fun field => field.name == name with
      | none =>
        colon
        passValue
        members fields steps false seen draft
      | some field =>
        if seen.contains name then return .error (.repeated name)
        colon
        let draft ← field.read draft
        members fields steps false (name :: seen) draft

/-- Reads the elements of an array as the fields of a record. What is wrong with the elements as a
whole is given back. -/
def elementsAsFields (wanted : String) (index : Nat) :
    List (Field δ) → δ → Scanner (Except Cause δ)
  | [], draft => return .ok draft
  | field :: rest, draft => do
    if ← nextElement (index == 0) then
      let draft ← field.read draft
      elementsAsFields wanted (index + 1) rest draft
    else if field.isRequired then return .error (.tooFew index wanted)
    else elementsAsFields wanted (index + 1) rest draft

/-- Reads a record into a draft that holds what its missing fields are to be. -/
def record (name : String) (fields : List (Field δ)) (draft : δ) : Scanner δ := do
  match ← next? with
  | none => stop .endInValue
  | some byte =>
    if byte = 0x5B then
      skip
      match ← elementsAsFields s!"struct {name} with {fields.length} elements" 0 fields draft with
      | .ok draft =>
        endArray
        return draft
      | .error cause =>
        passClosing 0x5D
        stop cause
    else if byte = 0x7B then
      skip
      let result ← members fields (← read) true [] draft
      passClosing 0x7D
      match result with
      | .ok draft => return draft
      | .error cause => stop cause
    else wrongType s!"struct {name}"

/-- Reads a value behind which the text ends. -/
def whole (value : Scanner α) : Scanner α := do
  let value ← value
  match ← next? with
  | none => return value
  | some _ => stopBehind .trailingCharacters

end Scanner

/-- Reads a whole text. -/
def decode (value : Scanner α) (text : Bytes) : Except Fault α :=
  match value.whole (2 * text.length + 2) text with
  | .ok (value, _) => .ok value
  | .error stop => .error (stop.locate text)

end PartitionSnapshot.Json
