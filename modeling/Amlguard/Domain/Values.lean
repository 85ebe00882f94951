import Mathlib.Algebra.Group.Nat.Defs
import Mathlib.Data.List.Forall2
import Mathlib.Data.Rat.Defs

/-!
# Values shared by the services

Identifiers, instants, JSON documents and exceptions. An exception keeps its class, the
names of its base classes and the data that handlers read from it.

Where amounts are only compared, or where they are added in few digits, a decimal is a rational
number. A sum of whole multiples of `10 ^ p` is exact as long as it is below `10 ^ (p + 28)`; where
amounts of any length are added, `Domain.Decimals` has the arithmetic that rounds.
-/

namespace Amlguard

/-- A UUID as its 128-bit number, which is also its order in the database. -/
abbrev UUID := ℕ

/-- The lower-case hexadecimal digits of a number, most significant first. -/
def hexDigits : ℕ → ℕ → List Char
  | 0, _ => []
  | width + 1, n => hexDigits width (n / 16) ++ [Nat.digitChar (n % 16)]

/-- The digits of a number, as many as asked for. -/
theorem length_hexDigits (width n : ℕ) : (hexDigits width n).length = width := by
  induction width generalizing n with
  | zero => rfl
  | succ width ih => simp [hexDigits, ih]

/-- Hexadecimal digits are distinct. -/
theorem digitChar_injective : ∀ a < 16, ∀ b < 16, Nat.digitChar a = Nat.digitChar b → a = b := by
  decide

/-- A number is determined by enough of its digits. -/
theorem hexDigits_injective {width n m : ℕ} (hn : n < 16 ^ width) (hm : m < 16 ^ width)
    (h : hexDigits width n = hexDigits width m) : n = m := by
  induction width generalizing n m with
  | zero => omega
  | succ width ih =>
    simp only [hexDigits] at h
    obtain ⟨hhead, hlast⟩ := List.append_inj h (by simp [length_hexDigits])
    have hdiv := ih (by rw [Nat.pow_succ] at hn; omega) (by rw [Nat.pow_succ] at hm; omega) hhead
    have hmod := digitChar_injective (n % 16) (by omega) (m % 16) (by omega) (by simpa using hlast)
    omega

/-- `str(uuid)`: thirty-two hexadecimal digits in five groups. -/
def UUID.str (id : UUID) : String :=
  let digits := hexDigits 32 id
  String.intercalate "-" [String.ofList (digits.take 8), String.ofList ((digits.drop 8).take 4),
    String.ofList ((digits.drop 12).take 4), String.ofList ((digits.drop 16).take 4),
    String.ofList (digits.drop 20)]

/-- The characters of a UUID's text. -/
theorem toList_str (id : UUID) :
    (UUID.str id).toList =
      (hexDigits 32 id).take 8 ++ ['-'] ++ ((hexDigits 32 id).drop 8).take 4 ++ ['-'] ++
        ((hexDigits 32 id).drop 12).take 4 ++ ['-'] ++ ((hexDigits 32 id).drop 16).take 4 ++
          ['-'] ++ (hexDigits 32 id).drop 20 := by
  have hjoin : ∀ a b c d e : String, String.intercalate "-" [a, b, c, d, e] =
      a ++ "-" ++ b ++ "-" ++ c ++ "-" ++ d ++ "-" ++ e := fun _ _ _ _ _ => rfl
  simp [UUID.str, hjoin]

/-- The text of a UUID has thirty-six characters. -/
theorem length_str (id : UUID) : (UUID.str id).toList.length = 36 := by
  simp [toList_str, length_hexDigits]

/-- UUIDs of 128 bits have different texts. -/
theorem str_injective {a b : UUID} (ha : a < 2 ^ 128) (hb : b < 2 ^ 128)
    (h : UUID.str a = UUID.str b) : a = b := by
  have hlist := congrArg String.toList h
  rw [toList_str, toList_str] at hlist
  have hpieces : ∀ {l l' r r' : List Char}, l.length = l'.length → l ++ ['-'] ++ r = l' ++ ['-'] ++ r' →
      l = l' ∧ r = r' := by
    intro l l' r r' hlength heq
    obtain ⟨hleft, hright⟩ := List.append_inj heq (by simp [hlength])
    exact ⟨(List.append_inj hleft hlength).1, hright⟩
  obtain ⟨hlist, h20⟩ := hpieces (by simp [length_hexDigits]) hlist
  obtain ⟨hlist, h16⟩ := hpieces (by simp [length_hexDigits]) hlist
  obtain ⟨hlist, h12⟩ := hpieces (by simp [length_hexDigits]) hlist
  obtain ⟨h0, h8⟩ := hpieces (by simp [length_hexDigits]) hlist
  have hjoin : ∀ digits : List Char, digits.take 8 ++ ((digits.drop 8).take 4 ++
      ((digits.drop 12).take 4 ++ ((digits.drop 16).take 4 ++ digits.drop 20))) = digits := by
    intro digits
    have hstep : ∀ n k, (digits.drop n).take k ++ digits.drop (n + k) = digits.drop n := by
      intro n k
      rw [← List.drop_drop]
      exact List.take_append_drop k (digits.drop n)
    rw [hstep 16 4, hstep 12 4, hstep 8 4, List.take_append_drop]
  have hdigits : hexDigits 32 a = hexDigits 32 b := by
    rw [← hjoin (hexDigits 32 a), ← hjoin (hexDigits 32 b), h0, h8, h12, h16, h20]
  exact hexDigits_injective (by simpa using ha) (by simpa using hb) hdigits

/-- One character inside the quotes of `repr`. -/
def reprChar (quote c : Char) : List Char :=
  let backslash := Char.ofNat 92
  if c = backslash || c = quote then [backslash, c]
  else if c = Char.ofNat 10 then [backslash, 'n']
  else if c = Char.ofNat 13 then [backslash, 'r']
  else if c = Char.ofNat 9 then [backslash, 't']
  else if c.toNat < 32 || c.toNat = 127 then [backslash, 'x'] ++ hexDigits 2 c.toNat
  else [c]

/-- `repr(s)`: single quotes, unless only double quotes need no escape. -/
def reprString (s : String) : String :=
  let single := Char.ofNat 39
  let double := Char.ofNat 34
  let quote := if s.toList.contains single && !s.toList.contains double then double else single
  String.ofList ([quote] ++ s.toList.flatMap (reprChar quote) ++ [quote])

/-- `repr(items)` of a list of strings. -/
def reprList (items : List String) : String :=
  "[" ++ String.intercalate ", " (items.map reprString) ++ "]"

/-- Microseconds since the first representable instant. -/
abbrev Datetime := ℕ

/-- Microseconds in a second. -/
def second : ℕ := 1000000

/-- The last instant that a `datetime` can hold: the end of the year 9999. -/
def datetimeMax : Datetime := 315537897599999999

/-- A JSON document. Objects keep the order of their fields. -/
inductive Json where
  | null
  | bool (value : Bool)
  | number (value : ℚ)
  | string (value : String)
  | array (items : List Json)
  | object (fields : List (String × Json))

instance : Inhabited Json := ⟨.null⟩

mutual

/-- Equality of documents is decided by their structure. -/
def Json.decEq : (a b : Json) → Decidable (a = b)
  | .null, .null => isTrue rfl
  | .bool a, .bool b => decidable_of_iff (a = b) (by simp)
  | .number a, .number b => decidable_of_iff (a = b) (by simp)
  | .string a, .string b => decidable_of_iff (a = b) (by simp)
  | .array a, .array b =>
    match Json.decEqItems a b with
    | isTrue h => isTrue (by rw [h])
    | isFalse h => isFalse (by simpa using h)
  | .object a, .object b =>
    match Json.decEqFields a b with
    | isTrue h => isTrue (by rw [h])
    | isFalse h => isFalse (by simpa using h)
  | .null, .bool _ | .null, .number _ | .null, .string _ | .null, .array _ | .null, .object _
  | .bool _, .null | .bool _, .number _ | .bool _, .string _ | .bool _, .array _
  | .bool _, .object _ | .number _, .null | .number _, .bool _ | .number _, .string _
  | .number _, .array _ | .number _, .object _ | .string _, .null | .string _, .bool _
  | .string _, .number _ | .string _, .array _ | .string _, .object _ | .array _, .null
  | .array _, .bool _ | .array _, .number _ | .array _, .string _ | .array _, .object _
  | .object _, .null | .object _, .bool _ | .object _, .number _ | .object _, .string _
  | .object _, .array _ => isFalse (by simp)

/-- Equality of lists of documents. -/
def Json.decEqItems : (a b : List Json) → Decidable (a = b)
  | [], [] => isTrue rfl
  | [], _ :: _ | _ :: _, [] => isFalse (by simp)
  | a :: as, b :: bs =>
    match Json.decEq a b, Json.decEqItems as bs with
    | isTrue h, isTrue hs => isTrue (by rw [h, hs])
    | isFalse h, _ => isFalse (by simp [h])
    | _, isFalse hs => isFalse (by simp [hs])

/-- Equality of the fields of objects. -/
def Json.decEqFields : (a b : List (String × Json)) → Decidable (a = b)
  | [], [] => isTrue rfl
  | [], _ :: _ | _ :: _, [] => isFalse (by simp)
  | (k, a) :: as, (l, b) :: bs =>
    if hk : k = l then
      match Json.decEq a b, Json.decEqFields as bs with
      | isTrue h, isTrue hs => isTrue (by rw [hk, h, hs])
      | isFalse h, _ => isFalse (by simp [h])
      | _, isFalse hs => isFalse (by simp [hs])
    else isFalse (by simp [hk])

end

instance : DecidableEq Json := Json.decEq

/-- One issue of a schema validation: its place and its type. -/
structure ValidationIssue where
  location : List String
  issueType : String
  deriving DecidableEq

/-- An exception: its class, the classes above it, its text, and the data that the failure
handlers read. `issues` is present exactly for a schema `ValidationError`. -/
structure PyError where
  typeName : String
  bases : List String := []
  message : String := ""
  statusCode : Option ℤ := none
  issues : Option (List ValidationIssue) := none
  deriving DecidableEq

namespace PyError

/-- `isinstance` for one class of exceptions. -/
def isA (e : PyError) (name : String) : Bool := e.typeName == name || e.bases.contains name

/-- `RuntimeError(message)`. -/
def runtimeError (message : String) : PyError := { typeName := "RuntimeError", message }

/-- `PermissionError(message)`. -/
def permissionError (message : String) : PyError :=
  { typeName := "PermissionError", bases := ["OSError"], message }

/-- `ValueError(message)`. -/
def valueError (message : String) : PyError := { typeName := "ValueError", message }

/-- `KeyError(key)`. -/
def keyError (key : String) : PyError :=
  { typeName := "KeyError", bases := ["LookupError"], message := key }

/-- An `OverflowError` of the arithmetic on instants. -/
def overflowError : PyError :=
  { typeName := "OverflowError", bases := ["ArithmeticError"], message := "date value out of range" }

/-- A pydantic `ValidationError` with its issues. -/
def validationError (issues : List ValidationIssue) : PyError :=
  { typeName := "ValidationError", bases := ["ValueError"], issues := some issues }

end PyError

/-- `scalar_one` found no row. -/
def noResultFound : PyError :=
  { typeName := "NoResultFound", bases := ["InvalidRequestError", "SQLAlchemyError"] }

/-- An `InvalidOperation` of decimal arithmetic, such as a comparison with a `NaN`. -/
def invalidOperation : PyError :=
  { typeName := "InvalidOperation", bases := ["DecimalException", "ArithmeticError"] }

/-- A uniqueness constraint of the schema is violated. -/
def integrityError : PyError :=
  { typeName := "IntegrityError", bases := ["DatabaseError", "DBAPIError", "SQLAlchemyError"] }

/-- Stop with an exception when a condition holds. -/
def raiseIf (condition : Prop) [Decidable condition] (e : PyError) : Except PyError Unit :=
  if condition then .error e else .ok ()

/-- The present value, or an exception. -/
def orRaise {α : Type} (value : Option α) (e : PyError) : Except PyError α :=
  match value with
  | some a => .ok a
  | none => .error e

/-- The exception that a step ended in. -/
def raised {α : Type} : Except PyError α → Option PyError
  | .ok _ => none
  | .error e => some e

/-- `instant + timedelta(seconds=…)`, which overflows past the last instant. -/
def addSeconds (instant : Datetime) (seconds : ℕ) : Except PyError Datetime :=
  if second * seconds + instant ≤ datetimeMax then .ok (second * seconds + instant)
  else .error .overflowError

@[simp] theorem raised_eq_some {α : Type} {r : Except PyError α} {e : PyError} :
    raised r = some e ↔ r = .error e := by
  cases r <;> simp [raised]

@[simp] theorem raiseIf_eq_ok {condition : Prop} [Decidable condition] {e : PyError} {u : Unit} :
    raiseIf condition e = .ok u ↔ ¬condition := by
  unfold raiseIf
  split <;> simp_all

@[simp] theorem raiseIf_eq_error {condition : Prop} [Decidable condition] {e e' : PyError} :
    raiseIf condition e = .error e' ↔ condition ∧ e = e' := by
  unfold raiseIf
  split <;> simp_all

theorem orRaise_eq_error {α : Type} {value : Option α} {e e' : PyError} :
    orRaise value e = .error e' ↔ value = none ∧ e = e' := by
  cases value <;> simp [orRaise]

@[simp] theorem orRaise_eq_ok {α : Type} {value : Option α} {e : PyError} {a : α} :
    orRaise value e = .ok a ↔ value = some a := by
  cases value <;> simp [orRaise]

/-- A step that has succeeded hands on its value. -/
theorem ok_bind {α β : Type} (a : α) (f : α → Except PyError β) : (Except.ok a >>= f) = f a := rfl

/-- A step that has failed ends the sequence. -/
theorem error_bind {α β : Type} (e : PyError) (f : α → Except PyError β) :
    (Except.error e >>= f) = .error e := rfl

/-- A sequence of fallible steps succeeds when each of its steps does. -/
theorem bind_eq_ok {α β : Type} {x : Except PyError α} {f : α → Except PyError β} {b : β} :
    x >>= f = .ok b ↔ ∃ a, x = .ok a ∧ f a = .ok b := by
  cases x with
  | ok a => exact ⟨fun h => ⟨a, rfl, h⟩, fun ⟨_, ha, h⟩ => (by cases ha; exact h)⟩
  | error e => exact ⟨fun h => (by cases h), fun ⟨_, ha, _⟩ => (by cases ha)⟩

/-- A sequence of fallible steps fails where one of its steps does. -/
theorem bind_eq_error {α β : Type} {x : Except PyError α} {f : α → Except PyError β} {e : PyError} :
    x >>= f = .error e ↔ x = .error e ∨ ∃ a, x = .ok a ∧ f a = .error e := by
  cases x with
  | ok a => simp [ok_bind]
  | error e' => simp [error_bind]

/-- A list of fallible steps succeeds exactly when each of them does. -/
theorem mapM_eq_ok {α β : Type} {f : α → Except PyError β} {items : List α} {made : List β} :
    items.mapM f = .ok made ↔ List.Forall₂ (fun a b => f a = .ok b) items made := by
  induction items generalizing made with
  | nil =>
    rw [List.mapM_nil, List.forall₂_nil_left_iff]
    exact ⟨fun h => (by cases h; rfl), fun h => (by rw [h]; rfl)⟩
  | cons item rest ih =>
    rw [List.mapM_cons, List.forall₂_cons_left_iff]
    constructor
    · intro h
      obtain ⟨first, hfirst, h⟩ := bind_eq_ok.mp h
      obtain ⟨others, hothers, h⟩ := bind_eq_ok.mp h
      cases h
      exact ⟨first, others, hfirst, ih.mp hothers, rfl⟩
    · intro h
      obtain ⟨first, others, hfirst, hothers, rfl⟩ := h
      rw [hfirst, ok_bind, ih.mpr hothers]
      rfl

/-- A list of fallible steps succeeds when each of them can. -/
theorem exists_mapM_iff {α β : Type} {f : α → Except PyError β} {items : List α} :
    (∃ made, items.mapM f = .ok made) ↔ ∀ a ∈ items, ∃ b, f a = .ok b := by
  simp only [mapM_eq_ok]
  induction items with
  | nil => simp
  | cons item rest ih => simp [List.forall₂_cons_left_iff, ← ih]

/-- An item of a list is related to one of the other list. -/
theorem exists_of_mem_forall₂ {α β : Type} {R : α → β → Prop} {as : List α} {bs : List β}
    (h : List.Forall₂ R as bs) {b : β} (hb : b ∈ bs) : ∃ a ∈ as, R a b := by
  induction h with
  | nil => cases hb
  | cons hfirst _ ih =>
    rcases List.mem_cons.mp hb with rfl | hb
    · exact ⟨_, List.mem_cons_self, hfirst⟩
    · obtain ⟨a, ha, hrest⟩ := ih hb
      exact ⟨a, List.mem_cons_of_mem _ ha, hrest⟩

/-- What a list of fallible steps gives, one of the steps has given. -/
theorem exists_of_mem_mapM {α β : Type} {f : α → Except PyError β} {as : List α} {bs : List β}
    (h : as.mapM f = .ok bs) {b : β} (hb : b ∈ bs) : ∃ a ∈ as, f a = .ok b :=
  exists_of_mem_forall₂ (mapM_eq_ok.mp h) hb

end Amlguard
