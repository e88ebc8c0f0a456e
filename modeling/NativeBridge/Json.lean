/-!
# Structured dumps

The data of a dump in JSON, as a tree. How a tree is written is left to whoever prints it.
-/

namespace NativeBridge

/-- A JSON tree. The members of an object are in no order that matters. -/
inductive Json where
  | null
  | bool (b : Bool)
  | number (n : Nat)
  | string (s : String)
  | array (items : List Json)
  | object (members : List (String × Json))

namespace Json

/-- The names of the members of an object. -/
def names : Json → List String
  | object members => members.map Prod.fst
  | _ => []

/-- The member of an object that has a given name. -/
def member? : Json → String → Option Json
  | object members, name => members.lookup name
  | _, _ => none

@[simp] theorem member?_cons (n name : String) (j : Json) (members : List (String × Json)) :
    (object ((n, j) :: members)).member? name =
      if name = n then some j else (object members).member? name := by
  by_cases h : name = n
  · simp [member?, h]
  · simp [member?, List.lookup_cons, beq_false_of_ne h, h]

end Json

end NativeBridge
