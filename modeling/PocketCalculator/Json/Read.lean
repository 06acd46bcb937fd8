import PocketCalculator.Json.Token
import PocketCalculator.Json.Value

/-!
# Reading JSON

A text is read token by token. The containers that are still open are kept in a list, so values
may be nested to any depth.
-/

namespace PocketCalculator

namespace Json

/-- A container that is still open, with the value under way left out; what stands before it is
kept last first. -/
inductive Frame where
  | array (before : List Json)
  | object (before : List (Option Text × Json)) (name : Option Text)

/-- A place between two tokens. -/
inductive Place where
  /-- Where a value has to follow. -/
  | value (frames : List Frame)
  /-- After the opening of an array. -/
  | firstItem (frames : List Frame)
  /-- After the opening of an object. -/
  | firstMember (frames : List Frame)
  /-- After a comma in an object. -/
  | member (before : List (Option Text × Json)) (frames : List Frame)
  /-- After the name of a member. -/
  | colon (before : List (Option Text × Json)) (name : Option Text) (frames : List Frame)
  /-- After a value. -/
  | behind (v : Json) (frames : List Frame)

namespace Place

/-- The place after the first token of a value. -/
def startValue (frames : List Frame) : Token → Option Place
  | .openArray => some (.firstItem frames)
  | .openObject => some (.firstMember frames)
  | .null => some (.behind .null frames)
  | .bool b => some (.behind (.bool b) frames)
  | .number literal => some (.behind (.number literal) frames)
  | .string content => some (.behind (.string content) frames)
  | _ => none

/-- The place after a token, if the token may stand there. -/
def next : Place → Token → Option Place
  | .value frames, t => startValue frames t
  | .firstItem frames, .closeArray => some (.behind (.array []) frames)
  | .firstItem frames, t => startValue (.array [] :: frames) t
  | .firstMember frames, .closeObject => some (.behind (.object []) frames)
  | .firstMember frames, .string name => some (.colon [] name frames)
  | .member before frames, .string name => some (.colon before name frames)
  | .colon before name frames, .colon => some (.value (.object before name :: frames))
  | .behind v (.array before :: frames), .comma => some (.value (.array (v :: before) :: frames))
  | .behind v (.array before :: frames), .closeArray =>
    some (.behind (.array (v :: before).reverse) frames)
  | .behind v (.object before name :: frames), .comma =>
    some (.member ((name, v) :: before) frames)
  | .behind v (.object before name :: frames), .closeObject =>
    some (.behind (.object ((name, v) :: before).reverse) frames)
  | _, _ => none

/-- The place after some tokens. -/
def nextAll (place : Place) : List Token → Option Place
  | [] => some place
  | t :: rest =>
    match place.next t with
    | some place => place.nextAll rest
    | none => none

end Place

/-- The value that some tokens spell. -/
def ofTokens? (ts : List Token) : Option Json :=
  match (Place.value []).nextAll ts with
  | some (.behind v []) => some v
  | _ => none

/-- The value of a JSON text. -/
def read? (xs : List Symbol) : Option Json :=
  match tokens? xs with
  | some ts => ofTokens? ts
  | none => none

end Json

end PocketCalculator
