import Amlguard.Domain.PyValue
import Amlguard.Library.Substitution

/-!
# Redaction of operational data

`redact` replaces the values under sensitive keys, and what two patterns match in every text: a bearer
token, and then an API key. The letters of both patterns match without regard to case, as Python's
matching of Unicode texts has it. What `str.lower` does to a key is left open.
-/

namespace Amlguard

open Substitution

/-- `SENSITIVE_KEYS`. -/
def sensitiveKeys : List String :=
  ["api_key", "authorization", "account_number", "document_number", "address", "raw_prompt",
    "raw_output"]

/-- The letters beyond ASCII that match `i`, `k` and `s` without regard to case. -/
def caseVariants : Char → List Char
  | 'i' => [Char.ofNat 304, Char.ofNat 305]
  | 'k' => [Char.ofNat 8490]
  | 's' => [Char.ofNat 383]
  | _ => []

/-- A lower-case letter of a pattern, without regard to case. -/
def letter (l c : Char) : Bool := c = l || c = l.toUpper || (caseVariants l).contains c

/-- A character of `[a-z0-9._-]`, without regard to case. -/
def tokenChar (c : Char) : Bool :=
  c.isAlphanum || c = '.' || c = '_' || c = '-' ||
    (caseVariants 'i' ++ caseVariants 'k' ++ caseVariants 's').contains c

/-- `(?i)bearer\s+[a-z0-9._-]+`. -/
def bearerToken : Matcher Char :=
  andThen (word ("bearer".toList.map letter)) (andThen (many1 isSpace) (many1 tokenChar))

/-- `(?i)(api[_-]?key\s*[=:]\s*)\S+`. -/
def apiKey : Matcher Char :=
  andThen (word ("api".toList.map letter)) (andThen (optional fun c => c = '_' || c = '-')
    (andThen (word ("key".toList.map letter)) (andThen (many isSpace)
      (andThen (one fun c => c = '=' || c = ':') (andThen (many isSpace)
        (many1 fun c => !isSpace c))))))

/-- What stands in the place of a secret. -/
def redacted : String := "[REDACTED]"

/-- The text without the matches of the two patterns. -/
def redactText (s : String) : String :=
  String.ofList (substitute apiKey redacted.toList 0
    (substitute bearerToken redacted.toList 0 s.toList))

section Redact

variable (lower : String → String)

mutual

/-- `redact`. -/
def redact : Json → Json
  | .object fields => .object (redactFields fields)
  | .array items => .array (redactItems items)
  | .string s => .string (redactText s)
  | .null => .null
  | .bool value => .bool value
  | .number value => .number value

/-- `redact` on the items of a list. -/
def redactItems : List Json → List Json
  | [] => []
  | item :: rest => redact item :: redactItems rest

/-- `redact` on the values of a dictionary: one under a sensitive key is replaced. -/
def redactFields : List (String × Json) → List (String × Json)
  | [] => []
  | (key, value) :: rest =>
    (key, if lower key ∈ sensitiveKeys then .string redacted else redact value) :: redactFields rest

end

/-- The line that `log_event` emits, with the dump of its payload left open. -/
def logLine (dumps : Json → String) (eventType : String) (fields : List (String × Json)) : String :=
  dumps (redact lower (.object (("event_type", .string eventType) :: fields)))

end Redact

example : redactText "Authorization bearer another-secret" = "Authorization [REDACTED]" := by
  decide +kernel

/-- A character of a token by RFC 6750. -/
def b64Char (c : Char) : Bool :=
  c.isAlphanum || c = '-' || c = '.' || c = '_' || c = '~' || c = '+' || c = '/'

/-- A `b64token` of RFC 6750. -/
def IsB64Token (c : List Char) : Prop :=
  ∃ body padding, c = body ++ padding ∧ body ≠ [] ∧ (∀ x ∈ body, b64Char x = true) ∧
    ∀ x ∈ padding, x = '='

/-- What stands before a credential. -/
def bearerPrefix : List Char := "Bearer ".toList

/-- A credential ends at a space or at the end of the text. -/
def Delimits (rest : List Char) : Prop := ∀ c ∈ rest.head?, c = ' '

/-- Two texts differ only in credentials. What follows two of them is compared from any common end
`q` of theirs on, as a further occurrence may begin there. -/
inductive DifferInCredentials : List Char → List Char → Prop
  | nil : DifferInCredentials [] []
  | char (c : Char) (s t : List Char) (h : DifferInCredentials s t) :
    DifferInCredentials (c :: s) (c :: t)
  | credential (p₁ p₂ q s t : List Char) (h₁ : IsB64Token (p₁ ++ q)) (h₂ : IsB64Token (p₂ ++ q))
    (hs : Delimits s) (h : DifferInCredentials (q ++ s) (q ++ t)) :
    DifferInCredentials (bearerPrefix ++ (p₁ ++ (q ++ s))) (bearerPrefix ++ (p₂ ++ (q ++ t)))

/-- The number of characters after the first that a match at the beginning takes. -/
def matchedAfter (s : List Char) : ℕ :=
  match bearerToken s with
  | some (n + 1) => n
  | _ => 0

/-- Two texts differ only in credentials that the pattern for bearer tokens covers. The number counts
the characters that the match before still takes; at a credential there are none. Its beginning, up to
the first character outside of the pattern's class, is not empty, and what follows is the same. -/
inductive Covered : ℕ → List Char → List Char → Prop
  | nil (k : ℕ) : Covered k [] []
  | inside (k : ℕ) (c : Char) (s t : List Char) (h : Covered k s t) :
    Covered (k + 1) (c :: s) (c :: t)
  | outside (c : Char) (s t : List Char) (h : Covered (matchedAfter (c :: s)) s t) :
    Covered 0 (c :: s) (c :: t)
  | credential (p₁ p₂ q s t : List Char) (h₁ : IsB64Token (p₁ ++ q)) (h₂ : IsB64Token (p₂ ++ q))
    (hs : Delimits s) (hp₁ : p₁ ≠ [] ∧ ∀ c ∈ p₁, tokenChar c = true)
    (hp₂ : p₂ ≠ [] ∧ ∀ c ∈ p₂, tokenChar c = true) (hq : ∀ c ∈ q.head?, tokenChar c = false)
    (h : Covered 0 (q ++ s) (q ++ t)) :
    Covered 0 (bearerPrefix ++ (p₁ ++ (q ++ s))) (bearerPrefix ++ (p₂ ++ (q ++ t)))

section Covered

/-- A match that begins before an occurrence of the prefix does not reach beyond it. -/
theorem bearerToken_decided {u : List Char} (hu : u ≠ []) :
    DecidedBy bearerToken (u ++ bearerPrefix) := by
  have hlength : bearerPrefix.length = 7 := by decide
  apply DecidedBy.andThen
  · apply decidedBy_word
    rw [List.length_append, hlength]
    exact le_trans (by decide) (Nat.le_add_left 7 _)
  · intro n hn
    obtain ⟨hsix, hword⟩ := word_eq_some hn
    obtain rfl : n = 6 := hsix.trans (by decide)
    refine ⟨by rw [List.length_append, hlength]; omega, ?_⟩
    by_cases hlong : 6 ≤ u.length
    · rw [List.drop_append_of_le_length hlong]
      generalize u.drop 6 = v
      apply DecidedBy.andThen
      · apply decidedBy_many1
        exact ⟨'B', List.mem_append_right _ (by decide), by decide⟩
      · intro k hk
        rw [many1] at hk
        split at hk
        · cases hk
        · cases hk
          refine ⟨(List.takeWhile_sublist _).length_le, ?_⟩
          rw [drop_takeWhile]
          apply decidedBy_many1
          refine ⟨' ', ?_, by decide⟩
          rw [List.dropWhile_append]
          split
          · decide
          · exact List.mem_append_right _ (by decide)
    · -- the keyword would have to begin in the text before and contain the `B` of the prefix
      exfalso
      have hletters : ∀ i < 6, 0 < i → ("bearer".toList[i]?).any (fun l => !letter l 'B') = true := by
        decide
      obtain ⟨l, hi, hl⟩ := (Option.any_eq_true _ _).mp
        (hletters u.length (Nat.lt_of_not_le hlong) (List.length_pos_iff.mpr hu))
      obtain ⟨c, hc, hmatch⟩ := hword u.length (letter l) (by rw [List.getElem?_map, hi]; rfl)
      rw [List.getElem?_append_right le_rfl, Nat.sub_self] at hc
      obtain rfl : 'B' = c := Option.some.inj hc
      rw [hmatch] at hl
      cases hl

/-- Two texts that differ only in credentials are equal up to the first of these. -/
theorem Covered.shared {k : ℕ} {s t : List Char} (h : Covered k s t) :
    s = t ∨ ∃ u x y, s = (u ++ bearerPrefix) ++ x ∧ t = (u ++ bearerPrefix) ++ y := by
  induction h with
  | nil k => exact .inl rfl
  | inside k c s t h ih | outside c s t h ih =>
    rcases ih with rfl | ⟨u, x, y, rfl, rfl⟩
    · exact .inl rfl
    · exact .inr ⟨c :: u, x, y, rfl, rfl⟩
  | credential p₁ p₂ q s t => exact .inr ⟨[], _, _, rfl, rfl⟩

/-- Outside of a match, both texts are matched alike. -/
theorem Covered.bearerToken_eq {k : ℕ} {c : Char} {s t : List Char} (h : Covered k s t) :
    bearerToken (c :: s) = bearerToken (c :: t) := by
  rcases h.shared with rfl | ⟨u, x, y, rfl, rfl⟩
  · rfl
  · have hdecided := bearerToken_decided (List.cons_ne_nil c u)
    exact (hdecided x).trans (hdecided y).symm

/-- The class of the pattern has no whitespace. -/
theorem isSpace_of_tokenChar {c : Char} (h : tokenChar c = true) : isSpace c = false := by
  simp only [tokenChar, Bool.or_eq_true, decide_eq_true_eq] at h
  rcases h with (((h | rfl) | rfl) | rfl) | h
  · have hrange : 48 ≤ c.toNat ∧ c.toNat ≤ 57 ∨ 65 ≤ c.toNat ∧ c.toNat ≤ 90 ∨
        97 ≤ c.toNat ∧ c.toNat ≤ 122 := by
      delta Char.isAlphanum Char.isAlpha Char.isUpper Char.isLower Char.isDigit at h
      simp only [Bool.or_eq_true, Bool.and_eq_true, decide_eq_true_eq, ge_iff_le, UInt32.le_iff_toNat_le] at h
      change (65 ≤ c.toNat ∧ c.toNat ≤ 90 ∨ 97 ≤ c.toNat ∧ c.toNat ≤ 122) ∨
        48 ≤ c.toNat ∧ c.toNat ≤ 57 at h
      omega
    simp only [isSpace, Bool.or_eq_false_iff, Bool.and_eq_false_iff, decide_eq_false_iff_not]
    omega
  · decide
  · decide
  · decide
  · have hvariants : (caseVariants 'i' ++ caseVariants 'k' ++ caseVariants 's').all
        (fun c => !isSpace c) = true := by
      decide
    simpa using List.all_eq_true.mp hvariants c (List.contains_iff_mem.mp h)

/-- The keyword stands in the prefix. -/
theorem word_bearer (rest : List Char) :
    word ("bearer".toList.map letter) (bearerPrefix ++ rest) = some 6 := by
  have hlength : ("bearer".toList.map letter).length ≤ bearerPrefix.length := by decide
  rw [decidedBy_word _ hlength rest]
  decide

/-- A covered credential is matched up to the first character outside of the class. -/
theorem bearerToken_credential {p rest : List Char} (hp : p ≠ [] ∧ ∀ c ∈ p, tokenChar c = true)
    (hrest : ∀ c ∈ rest.head?, tokenChar c = false) :
    bearerToken (bearerPrefix ++ (p ++ rest)) = some (7 + p.length) := by
  have hstop : rest.takeWhile tokenChar = [] := by
    cases rest with
    | nil => rfl
    | cons c rest => rw [List.takeWhile_cons, if_neg (by rw [hrest c rfl]; exact Bool.false_ne_true)]
  have htoken : (p ++ rest).takeWhile tokenChar = p := by
    rw [List.takeWhile_append_of_pos hp.2, hstop, List.append_nil]
  obtain ⟨c, p', rfl⟩ := List.exists_cons_of_ne_nil hp.1
  have hspace : ((c :: p') ++ rest).takeWhile isSpace = [] := by
    rw [List.cons_append, List.takeWhile_cons,
      if_neg (by rw [isSpace_of_tokenChar (hp.2 c List.mem_cons_self)]; exact Bool.false_ne_true)]
  rw [bearerToken, Substitution.andThen, word_bearer]
  dsimp only
  rw [show (bearerPrefix ++ ((c :: p') ++ rest)).drop 6 = [' '] ++ ((c :: p') ++ rest) from rfl,
    Substitution.andThen, many1, List.takeWhile_append_of_pos (List.all_eq_true.mp (by decide)),
    hspace]
  rw [if_neg (by decide)]
  dsimp only
  rw [List.append_nil, show ([' '] ++ ((c :: p') ++ rest)).drop [' '].length = (c :: p') ++ rest from rfl,
    many1, htoken, if_neg (List.cons_ne_nil _ _)]
  simp only [Option.map_some, List.length_singleton]
  congr 1
  omega

/-- The texts begin alike. -/
theorem Covered.head_eq {k : ℕ} {s t : List Char} (h : Covered k s t) : s.head? = t.head? := by
  cases h <;> rfl

/-- The pattern's class ends with the covered part of a credential. -/
theorem stops_after {q s : List Char} (hs : Delimits s) (hq : ∀ c ∈ q.head?, tokenChar c = false) :
    ∀ c ∈ (q ++ s).head?, tokenChar c = false := by
  cases q with
  | nil =>
    intro c hc
    rw [hs c hc]
    decide
  | cons d q => exact hq

/-- What follows a covered credential is treated by itself. -/
theorem substitute_credential {replacement p rest : List Char}
    (hp : p ≠ [] ∧ ∀ c ∈ p, tokenChar c = true) (hrest : ∀ c ∈ rest.head?, tokenChar c = false) :
    substitute bearerToken replacement 0 (bearerPrefix ++ (p ++ rest)) =
      replacement ++ substitute bearerToken replacement 0 rest := by
  have hmatch : bearerToken (bearerPrefix ++ (p ++ rest)) = some (6 + p.length + 1) := by
    rw [bearerToken_credential hp hrest]
    congr 1
    omega
  have hdrop : (bearerPrefix ++ (p ++ rest)).drop (6 + p.length + 1) = rest := by
    rw [← List.append_assoc]
    apply List.drop_left'
    rw [List.length_append, show bearerPrefix.length = 7 by decide]
    omega
  rw [substitute_match hmatch (List.append_ne_nil_of_left_ne_nil (by decide) _), hdrop]

/-- Texts that differ only in covered credentials are the same after the first substitution. -/
theorem Covered.substitute_eq {replacement : List Char} {k : ℕ} {s t : List Char} (h : Covered k s t) :
    substitute bearerToken replacement k s = substitute bearerToken replacement k t := by
  induction h with
  | nil k => rfl
  | inside k c s t h ih => exact ih
  | outside c s t h ih =>
    apply substitute_cons h.bearerToken_eq
    intro n hn
    have hn : matchedAfter (c :: s) = n := by
      unfold matchedAfter
      rcases hn with hsome | ⟨rfl, hnone | hzero⟩
      · rw [hsome]
      · rw [hnone]
      · rw [hzero]
    rw [hn] at ih
    exact ih
  | credential p₁ p₂ q s t h₁ h₂ hs hp₁ hp₂ hq h ih =>
    have hstop := stops_after hs hq
    rw [substitute_credential hp₁ hstop, substitute_credential hp₂ (by rw [← h.head_eq]; exact hstop),
      ih]

/-- Covered credentials make no difference to a text. -/
theorem Covered.redactText_eq {s t : String} (h : Covered 0 s.toList t.toList) :
    redactText s = redactText t := by
  unfold redactText
  rw [h.substitute_eq]

/-- Texts that differ only in covered credentials differ only in credentials. -/
theorem Covered.differ {k : ℕ} {s t : List Char} (h : Covered k s t) : DifferInCredentials s t := by
  induction h with
  | nil k => exact .nil
  | inside k c s t h ih | outside c s t h ih => exact .char c s t ih
  | credential p₁ p₂ q s t h₁ h₂ hs hp₁ hp₂ hq h ih => exact .credential p₁ p₂ q s t h₁ h₂ hs ih

end Covered

section Payloads

variable (lower : String → String) (texts : String → String → Prop)

mutual

/-- Two documents of the same shape that differ only under sensitive keys, and in texts as the given
relation allows. -/
def DifferIn : Json → Json → Prop
  | .object fields, .object fields' => DifferInFields fields fields'
  | .array items, .array items' => DifferInItems items items'
  | .string s, .string t => texts s t
  | v, w => v = w

/-- The same for the items of lists. -/
def DifferInItems : List Json → List Json → Prop
  | [], [] => True
  | v :: items, w :: items' => DifferIn v w ∧ DifferInItems items items'
  | _, _ => False

/-- The same for the fields of dictionaries. -/
def DifferInFields : List (String × Json) → List (String × Json) → Prop
  | [], [] => True
  | (key, v) :: fields, (key', w) :: fields' =>
    key = key' ∧ (lower key ∈ sensitiveKeys ∨ DifferIn v w) ∧ DifferInFields fields fields'
  | _, _ => False

end

variable {lower texts}

mutual

/-- Documents that differ in texts which are redacted alike are redacted alike. -/
theorem redact_eq (htexts : ∀ s t, texts s t → redactText s = redactText t) :
    ∀ v w, DifferIn lower texts v w → redact lower v = redact lower w
  | .object fields, w, h => by
    cases w with
    | object fields' => rw [redact, redact, redactFields_eq htexts fields fields' h]
    | _ => cases h
  | .array items, w, h => by
    cases w with
    | array items' => rw [redact, redact, redactItems_eq htexts items items' h]
    | _ => cases h
  | .string s, w, h => by
    cases w with
    | string t => rw [redact, redact, htexts s t h]
    | _ => cases h
  | .null, w, h | .bool _, w, h | .number _, w, h => by
    cases w <;> cases h
    rfl

/-- The same for the items of lists. -/
theorem redactItems_eq (htexts : ∀ s t, texts s t → redactText s = redactText t) :
    ∀ items items', DifferInItems lower texts items items' →
      redactItems lower items = redactItems lower items'
  | [], [], _ => rfl
  | v :: items, w :: items', h => by
    rw [redactItems, redactItems, redact_eq htexts v w h.1, redactItems_eq htexts items items' h.2]

/-- The same for the fields of dictionaries. -/
theorem redactFields_eq (htexts : ∀ s t, texts s t → redactText s = redactText t) :
    ∀ fields fields', DifferInFields lower texts fields fields' →
      redactFields lower fields = redactFields lower fields'
  | [], [], _ => rfl
  | (key, v) :: fields, (key', w) :: fields', h => by
    obtain ⟨rfl, hvalue, hrest⟩ := h
    have hhead : (if lower key ∈ sensitiveKeys then Json.string redacted else redact lower v) =
        if lower key ∈ sensitiveKeys then Json.string redacted else redact lower w := by
      rcases hvalue with hkey | hvalue
      · rw [if_pos hkey, if_pos hkey]
      · rw [redact_eq htexts v w hvalue]
    rw [redactFields, redactFields, redactFields_eq htexts fields fields' hrest, hhead]

end

end Payloads

/-- Documents that differ only under sensitive keys and in covered credentials are redacted alike, and
so are the lines of the log. -/
theorem redacted_alike_of_covered (lower : String → String) (dumps : Json → String) :
    (∀ v w, DifferIn lower (fun s t => Covered 0 s.toList t.toList) v w →
      redact lower v = redact lower w) ∧
    ∀ eventType fields fields',
      DifferInFields lower (fun s t => Covered 0 s.toList t.toList) fields fields' →
        logLine lower dumps eventType fields = logLine lower dumps eventType fields' := by
  have htexts : ∀ s t : String, Covered 0 s.toList t.toList → redactText s = redactText t :=
    fun s t => Covered.redactText_eq
  refine ⟨fun v w => redact_eq htexts v w, fun eventType fields fields' h => ?_⟩
  unfold logLine
  rw [redact, redact, redactFields, redactFields, redactFields_eq htexts fields fields' h]

/-- Two bearer tokens and two values under a sensitive key. -/
theorem redacted_alike_of_covered_tokens :
    redact String.toLower (.object [("note", .string "Bearer abc"), ("API_KEY", .number 1)]) =
      redact String.toLower (.object [("note", .string "Bearer xy"), ("API_KEY", .null)]) := by
  apply (redacted_alike_of_covered String.toLower fun _ => "").1
  refine ⟨rfl, .inr ?_, rfl, .inl (by decide +kernel), trivial⟩
  have htoken : ∀ p : List Char, p ≠ [] → p.all b64Char = true → IsB64Token (p ++ []) :=
    fun p hp hb => ⟨p, [], rfl, hp, List.all_eq_true.mp hb, fun x hx => by cases hx⟩
  exact Covered.credential "abc".toList "xy".toList [] [] [] (htoken _ (by decide) (by decide))
    (htoken _ (by decide) (by decide)) (fun c hc => by cases hc)
    ⟨by decide, List.all_eq_true.mp (by decide)⟩ ⟨by decide, List.all_eq_true.mp (by decide)⟩
    (fun c hc => by cases hc) (.nil 0)

/-- The tail of a credential behind a plus sign is not replaced. -/
theorem credential_tail_leaked :
    ¬∀ v w, DifferIn String.toLower (fun s t => DifferInCredentials s.toList t.toList) v w →
      redact String.toLower v = redact String.toLower w := by
  intro h
  have htoken : ∀ p : List Char, p ≠ [] → p.all b64Char = true → IsB64Token (p ++ []) :=
    fun p hp hb => ⟨p, [], rfl, hp, List.all_eq_true.mp hb, fun x hx => by cases hx⟩
  have hequal := h (.string "Bearer a+b") (.string "Bearer a+c")
    (DifferInCredentials.credential "a+b".toList "a+c".toList [] [] []
      (htoken _ (by decide) (by decide)) (htoken _ (by decide) (by decide))
      (fun c hc => by cases hc) .nil)
  rw [redact, redact] at hequal
  exact absurd (Json.string.inj hequal) (by decide +kernel)

end Amlguard
