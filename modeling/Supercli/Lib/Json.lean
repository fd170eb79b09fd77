import Supercli.Lib.Utf8

/-!
# `Lib.Json` — JSON values and their compact text

Objects are lists of members in the order of their keys, as a sorted map serializes them. Parsing is left to whoever uses
the values; `render` is the compact text a serializer writes.
-/

inductive Json
  | null
  | bool (value : Bool)
  | nat (value : Nat)
  /-- any other number, as its text -/
  | number (text : String)
  | str (value : String)
  | arr (items : List Json)
  | obj (members : List (String × Json))

namespace Json

/-- `Value::get`. -/
def get (v : Json) (key : String) : Option Json :=
  match v with
  | .obj members => (members.find? fun m => m.1 = key).map (·.2)
  | _ => none

/-- `Value::as_str`. -/
def asStr : Json → Option String
  | .str s => some s
  | _ => none

/-- `Value::as_bool`. -/
def asBool : Json → Option Bool
  | .bool b => some b
  | _ => none

/-- `Value::as_u64`. -/
def asU64 : Json → Option Nat
  | .nat n => if n < 2 ^ 64 then some n else none
  | _ => none

/-- `Value::as_array`. -/
def asArray : Json → Option (List Json)
  | .arr items => some items
  | _ => none

/-- `Value::as_object`. -/
def asObject : Json → Option (List (String × Json))
  | .obj members => some members
  | _ => none

/-- A string that may be missing. -/
def ofOption : Option String → Json
  | some s => .str s
  | none => .null

def hexDigit (n : Nat) : Char := "0123456789abcdef".toList.getD n '0'

/-- One character inside a string. -/
def escape (c : Char) : Text :=
  let n := c.toNat
  let backslash := Char.ofNat 92
  if n = 34 then [backslash, c]
  else if n = 92 then [backslash, c]
  else if n = 8 then [backslash, 'b']
  else if n = 9 then [backslash, 't']
  else if n = 10 then [backslash, 'n']
  else if n = 12 then [backslash, 'f']
  else if n = 13 then [backslash, 'r']
  else if n < 32 then [backslash, 'u', '0', '0', hexDigit (n / 16), hexDigit (n % 16)]
  else [c]

def quote (s : String) : Text := Char.ofNat 34 :: s.toList.flatMap escape ++ [Char.ofNat 34]

mutual

/-- The compact text of a value. -/
def render : Json → Text
  | .null => "null".toList
  | .bool b => (if b then "true" else "false").toList
  | .nat n => (toString n).toList
  | .number text => text.toList
  | .str s => quote s
  | .arr items => '[' :: renderItems items ++ [']']
  | .obj members => Char.ofNat 123 :: renderMembers members ++ [Char.ofNat 125]

def renderItems : List Json → Text
  | [] => []
  | [v] => render v
  | v :: w :: rest => render v ++ ',' :: renderItems (w :: rest)

def renderMembers : List (String × Json) → Text
  | [] => []
  | [(key, v)] => quote key ++ ':' :: render v
  | (key, v) :: member :: rest => quote key ++ ':' :: render v ++ ',' :: renderMembers (member :: rest)

end

end Json

theorem lt_of_asU64 {v : Json} (h : v.asU64 = some n) : n < 2 ^ 64 := by
  cases v with
  | nat =>
    simp only [Json.asU64] at h
    split at h
    · rename_i hm
      exact Option.some.inj h ▸ hm
    · cases h
  | _ => cases h

/-- A computation that succeeds has succeeded in its first part. -/
theorem ok_of_bind {x : Except ε α} {f : α → Except ε β} {b : β} (h : x >>= f = .ok b) :
    ∃ a, x = .ok a ∧ f a = .ok b := by
  cases x with
  | error => cases h
  | ok a => exact ⟨a, rfl, h⟩
