import Amlguard.Domain.Values
import Mathlib.Data.List.DropRight

/-!
# Python values

The values that a YAML document is loaded into, and the built-in functions on them: `str`, `bool`,
`dict.get`, and `str.strip`. A value of another type is known by its text, by its truth, and by
whether it can be hashed.
-/

namespace Amlguard

/-- A value of a loaded document. -/
inductive PyValue where
  | none
  | bool (value : Bool)
  | int (value : ℤ)
  | str (value : String)
  | list (items : List PyValue)
  | dict (items : List (PyValue × PyValue))
  | other (text : String) (truthy hashable : Bool)

/-- A dictionary. -/
abbrev PyDict := List (PyValue × PyValue)

instance : Inhabited PyValue := ⟨.none⟩

namespace PyValue

mutual

/-- `repr(value)`. -/
def repr : PyValue → String
  | .none => "None"
  | .bool true => "True"
  | .bool false => "False"
  | .int value => toString value
  | .str value => reprString value
  | .list items => "[" ++ String.intercalate ", " (reprItems items) ++ "]"
  | .dict items => String.ofList [Char.ofNat 123] ++ String.intercalate ", " (reprEntries items) ++
      String.ofList [Char.ofNat 125]
  | .other text _ _ => text

/-- `repr` of the items of a list. -/
def reprItems : List PyValue → List String
  | [] => []
  | item :: rest => item.repr :: reprItems rest

/-- `repr` of the entries of a dictionary. -/
def reprEntries : List (PyValue × PyValue) → List String
  | [] => []
  | (key, value) :: rest => (key.repr ++ ": " ++ value.repr) :: reprEntries rest

end

/-- `str(value)`. -/
def text : PyValue → String
  | .str value => value
  | value => value.repr

/-- `bool(value)`. -/
def truthy : PyValue → Bool
  | .none => false
  | .bool value => value
  | .int value => value ≠ 0
  | .str value => value ≠ ""
  | .list items => !items.isEmpty
  | .dict items => !items.isEmpty
  | .other _ truthy _ => truthy

/-- Whether `hash(value)` succeeds. -/
def hashable : PyValue → Bool
  | .list _ | .dict _ => false
  | .other _ _ hashable => hashable
  | .none | .bool _ | .int _ | .str _ => true

/-- `value == text`, for a text. -/
def equals (value : PyValue) (text : String) : Bool :=
  match value with
  | .str s => s = text
  | _ => false

/-- `value is True`. -/
def isTrue : PyValue → Bool
  | .bool value => value
  | _ => false

/-- `items.get(key)`, for a text. -/
def get (items : PyDict) (key : String) : Option PyValue :=
  (items.find? fun item => item.1.equals key).map (·.2)

/-- The value when it is a dictionary, and an empty one otherwise. -/
def dictOrEmpty : Option PyValue → PyDict
  | some (.dict items) => items
  | _ => []

mutual

/-- The value of a JSON document. A number is known by the text that `str` gives it. -/
def ofJson (number : ℚ → String) : Json → PyValue
  | .null => .none
  | .bool value => .bool value
  | .number value => .other (number value) (value ≠ 0) true
  | .string value => .str value
  | .array items => .list (ofJsonItems number items)
  | .object fields => .dict (ofJsonFields number fields)

/-- The values of the items of an array. -/
def ofJsonItems (number : ℚ → String) : List Json → List PyValue
  | [] => []
  | item :: rest => ofJson number item :: ofJsonItems number rest

/-- The entries of an object. -/
def ofJsonFields (number : ℚ → String) : List (String × Json) → PyDict
  | [] => []
  | (key, value) :: rest => (.str key, ofJson number value) :: ofJsonFields number rest

end

end PyValue

/-- `c.isspace()`. -/
def isSpace (c : Char) : Bool :=
  (9 ≤ c.toNat && c.toNat ≤ 13) || (28 ≤ c.toNat && c.toNat ≤ 32) || c.toNat = 133 ||
    c.toNat = 160 || c.toNat = 5760 || (8192 ≤ c.toNat && c.toNat ≤ 8202) || c.toNat = 8232 ||
    c.toNat = 8233 || c.toNat = 8239 || c.toNat = 8287 || c.toNat = 12288

/-- `s.strip()`. -/
def strip (s : String) : String :=
  String.ofList ((s.toList.dropWhile isSpace).rdropWhile isSpace)

/-- `s.upper()`, for the ASCII letters. -/
def upper (s : String) : String := String.ofList (s.toList.map Char.toUpper)

/-- A text is blank when nothing is left of it. -/
def Blank (s : String) : Prop := ∀ c ∈ s.toList, isSpace c = true

instance (s : String) : Decidable (Blank s) := inferInstanceAs (Decidable (∀ c ∈ s.toList, _))

/-- A text with a character that is no whitespace is not blank. -/
theorem not_blank_of_mem {s : String} {c : Char} (hmem : c ∈ s.toList) (hspace : isSpace c = false) :
    ¬Blank s := by
  intro h
  rw [h c hmem] at hspace
  cases hspace

/-- The text of a document is blank only when it is a blank string. -/
theorem blank_text_ofJson {number : ℚ → String} (hnumber : ∀ q, ¬Blank (number q)) {value : Json} :
    Blank (PyValue.ofJson number value).text ↔ ∃ s, value = .string s ∧ Blank s := by
  cases value with
  | null => simp [PyValue.ofJson, PyValue.text, PyValue.repr, Blank, isSpace]
  | bool value =>
    cases value <;> simp [PyValue.ofJson, PyValue.text, PyValue.repr, Blank, isSpace]
  | number value =>
    simpa [PyValue.ofJson, PyValue.text, PyValue.repr] using hnumber value
  | string value => simp [PyValue.ofJson, PyValue.text]
  | array items =>
    simp only [reduceCtorEq, false_and, exists_false, iff_false]
    apply not_blank_of_mem (c := '[')
    · simp [PyValue.ofJson, PyValue.text, PyValue.repr]
    · decide
  | object fields =>
    simp only [reduceCtorEq, false_and, exists_false, iff_false]
    apply not_blank_of_mem (c := Char.ofNat 123)
    · simp [PyValue.ofJson, PyValue.text, PyValue.repr]
    · decide

/-- Nothing is left of a text exactly when it holds only whitespace. -/
theorem strip_eq_empty {s : String} : strip s = "" ↔ Blank s := by
  have hempty : ("" : String) = String.ofList [] := rfl
  rw [strip, hempty, String.ofList_inj, List.rdropWhile_eq_nil_iff]
  constructor
  · intro h c hc
    by_contra hspace
    have hkept : s.toList.dropWhile isSpace ≠ [] := by
      rw [Ne, List.dropWhile_eq_nil_iff]
      exact fun hall => hspace (hall c hc)
    have hhead := List.head_dropWhile_not isSpace hkept
    rw [h _ (List.head_mem hkept)] at hhead
    cases hhead
  · intro h c hc
    exact h c ((List.dropWhile_sublist isSpace).mem hc)

end Amlguard
