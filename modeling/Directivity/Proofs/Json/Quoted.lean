import Directivity.Json.Quoted
import Mathlib.Data.List.Basic
import Mathlib.Tactic.SplitIfs

set_option autoImplicit false
set_option relaxedAutoImplicit false

namespace Directivity.Quoted

theorem hexDigit?_digitChar : ∀ n < 16, hexDigit? (Nat.digitChar n) = some n := by decide

theorem units?_hexChars {n : Nat} (small : n < 65536) (rest : List Char) :
    units? ('\\' :: 'u' :: hexChars n ++ rest) =
      (units? rest).map fun (units, rest) => (n :: units, rest) := by
  have value : ((n / 4096 % 16 * 16 + n / 256 % 16) * 16 + n / 16 % 16) * 16 + n % 16 = n := by omega
  have digits : ∀ k, hexDigit? (Nat.digitChar (k % 16)) = some (k % 16) := fun k =>
    hexDigit?_digitChar _ (Nat.mod_lt _ (by omega))
  show units? ('\\' :: 'u' :: Nat.digitChar (n / 4096 % 16) :: Nat.digitChar (n / 256 % 16) ::
    Nat.digitChar (n / 16 % 16) :: Nat.digitChar (n % 16) :: rest) = _
  rw [units?, hex?]
  simp only [digits, Option.bind_eq_bind, Option.bind_some, Option.pure_def, value]
  cases units? rest <;> rfl

theorem units?_unescape {mark c : Char} (known : unescape? mark = some c) (rest : List Char) :
    units? ('\\' :: mark :: rest) = (units? rest).map fun (units, rest) => (c.toNat :: units, rest) := by
  have noDigits : mark ≠ 'u' := by
    rintro rfl
    cases known
  rw [units?, known, Option.bind_eq_bind, Option.bind_some]
  · cases units? rest <;> rfl
  · rintro a b c d rest rfl
    exact absurd rfl noDigits

theorem units?_plain {c : Char} (noQuote : c ≠ '"') (noBackslash : c ≠ '\\')
    (noControl : ¬ c.toNat < 32) (rest : List Char) :
    units? (c :: rest) = (units? rest).map fun (units, rest) => (c.toNat :: units, rest) := by
  rw [units?, if_neg (not_or.mpr ⟨noControl, noBackslash⟩)]
  · cases units? rest <;> rfl
  · exact noQuote
  · rintro a b c d rest rfl
    exact absurd rfl noBackslash
  · rintro d rest rfl
    exact absurd rfl noBackslash

theorem units?_escape (c : Char) (rest : List Char) :
    units? (escape c ++ rest) = (units? rest).map fun (units, rest) => (c.toNat :: units, rest) := by
  unfold escape
  split_ifs with quote backslash newline tab carriage back feed control
  · subst quote
    exact units?_unescape (c := '"') rfl rest
  · subst backslash
    exact units?_unescape (c := '\\') rfl rest
  · subst newline
    exact units?_unescape (c := '\n') rfl rest
  · subst tab
    exact units?_unescape (c := '\t') rfl rest
  · subst carriage
    exact units?_unescape (c := '\r') rfl rest
  · subst back
    exact units?_unescape (c := '\x08') rfl rest
  · subst feed
    exact units?_unescape (c := '\x0c') rfl rest
  · exact units?_hexChars (by omega) rest
  · exact units?_plain quote backslash control rest

theorem units?_flatMap_escape (text rest : List Char) :
    units? (text.flatMap escape ++ '"' :: rest) = some (text.map Char.toNat, rest) := by
  induction text with
  | nil => rw [List.flatMap_nil, List.nil_append, units?]; rfl
  | cons c text ih =>
    rw [List.flatMap_cons, List.append_assoc, units?_escape, ih]
    rfl

theorem not_surrogate (c : Char) : isLeading c.toNat = false ∧ isTrailing c.toNat = false := by
  have valid : c.toNat < 0xD800 ∨ 0xDFFF < c.toNat ∧ c.toNat < 0x110000 := c.valid
  simp only [isLeading, isTrailing, Bool.and_eq_false_iff, decide_eq_false_iff_not]
  omega

theorem text?_cons (c : Char) (units : List Nat) :
    text? (c.toNat :: units) = (text? units).map (c :: ·) := by
  obtain ⟨leading, trailing⟩ := not_surrogate c
  cases units with
  | nil => simp [text?, leading, trailing]
  | cons unit units => simp [text?, leading, trailing]

theorem text?_map_toNat (text : List Char) : text? (text.map Char.toNat) = some text := by
  induction text with
  | nil => rfl
  | cons c text ih => rw [List.map_cons, text?_cons, ih, Option.map_some]

end Directivity.Quoted
