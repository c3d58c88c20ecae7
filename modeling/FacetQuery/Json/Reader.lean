import FacetQuery.Json.Token

/-!
# `FacetQuery.Json.Reader` — JSON values from tokens

The reader walks the tokens once with a stack of the containers that are still open, so it needs no
bound on the depth of nesting. `Mode` is what may stand next.
-/

namespace FacetQuery.Json

/-- A container that is still open, with its finished parts, the last one first. An object waits for the
    value of `key`. -/
inductive Frame where
  | array (items : List Json)
  | object (members : List (Literal × Json)) (key : Literal)

/-- What may stand next. -/
inductive Mode where
  /-- A value, or `]` if the array was just opened. -/
  | value (closable : Bool)
  /-- A key of the object with these members, or its brace if it was just opened. -/
  | key (members : List (Literal × Json)) (closable : Bool)
  /-- The colon after a key. -/
  | colon (members : List (Literal × Json)) (key : Literal)
  /-- What may follow the value `v`. -/
  | after (v : Json)

/-- The mode and stack after one token; none if the token may not stand here. -/
def Mode.step (stack : List Frame) : Mode → Token → Option (List Frame × Mode)
  | .value _, .null => some (stack, .after .null)
  | .value _, .bool b => some (stack, .after (.bool b))
  | .value _, .integer negative m => some (stack, .after (.integer negative m))
  | .value _, .decimal d => some (stack, .after (.decimal d))
  | .value _, .text s => some (stack, .after (.text s))
  | .value _, .openArray => some (.array [] :: stack, .value true)
  | .value _, .openObject => some (stack, .key [] true)
  | .value true, .closeArray =>
      match stack with
      | .array items :: up => some (up, .after (.array items.reverse))
      | _ => none
  | .key members true, .closeObject => some (stack, .after (.object members.reverse))
  | .key members _, .text k => some (stack, .colon members k)
  | .colon members k, .colon => some (.object members k :: stack, .value false)
  | .after v, .comma =>
      match stack with
      | .array items :: up => some (.array (v :: items) :: up, .value false)
      | .object members k :: up => some (up, .key ((k, v) :: members) false)
      | [] => none
  | .after v, .closeArray =>
      match stack with
      | .array items :: up => some (up, .after (.array (v :: items).reverse))
      | _ => none
  | .after v, .closeObject =>
      match stack with
      | .object members k :: up => some (up, .after (.object ((k, v) :: members).reverse))
      | _ => none
  | _, _ => none

/-- Reads tokens from a mode and stack on; the one value that is left at the end is the result. -/
def readTokens (stack : List Frame) (mode : Mode) : List Token → Option Json
  | [] =>
      match stack, mode with
      | [], .after v => some v
      | _, _ => none
  | t :: ts =>
      match mode.step stack t with
      | some (stack', mode') => readTokens stack' mode' ts
      | none => none

/-- The value that a JSON text writes; none if the text is not one well-formed value. -/
def parse? (s : String) : Option Json := do
  readTokens [] (.value false) (← Token.scan s.toList)

end FacetQuery.Json
