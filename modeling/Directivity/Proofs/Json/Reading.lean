import Directivity.Json.Reader
import Directivity.Json.Writer
import Directivity.Proofs.Decimal.Numerals
import Directivity.Proofs.Json.Quoted

/-!
A written value is read as the same value.

The text of a value is first cut into the tokens of the value, whatever follows it, unless that
could go on with a number. The tokens then drive the machine, within any containers that are open
already, to the point at which the value is complete.
-/

set_option autoImplicit false
set_option relaxedAutoImplicit false

namespace Directivity.Json

inductive WellFormed : Json → Prop
  | null : WellFormed .null
  | bool (value : Bool) : WellFormed (.bool value)
  | number (numeral : Numeral) (wellFormed : numeral.WellFormed) : WellFormed (.number numeral)
  | string (text : Option String) : WellFormed (.string text)
  | array (items : List Json) (all : ∀ item ∈ items, WellFormed item) : WellFormed (.array items)
  | object (members : List (Option String × Json)) (all : ∀ member ∈ members, WellFormed member.2) :
    WellFormed (.object members)

mutual

def tokens : Json → List Token
  | .null => [.null]
  | .bool value => [.bool value]
  | .number numeral => [.number numeral]
  | .string text => [.string text]
  | .array items => .openArray :: itemsTokens items ++ [.closeArray]
  | .object members => .openObject :: membersTokens members ++ [.closeObject]

def itemsTokens : List Json → List Token
  | [] => []
  | [item] => tokens item
  | item :: items => tokens item ++ .comma :: itemsTokens items

def membersTokens : List (Option String × Json) → List Token
  | [] => []
  | [(key, value)] => .string key :: .colon :: tokens value
  | (key, value) :: members =>
    .string key :: .colon :: tokens value ++ .comma :: membersTokens members

end

section Lexing

variable {c : Char} {cs rest : List Char} {token : Token} {ts : List Token}

theorem tokensWithin?_mono {steps more : Nat} (read : tokensWithin? steps cs = some ts)
    (le : steps ≤ more) : tokensWithin? more cs = some ts := by
  fun_induction tokensWithin? steps cs generalizing more ts with
  | case1 => simpa [tokensWithin?] using read
  | case2 => cases read
  | case3 steps c rest blank ih =>
    obtain ⟨more, rfl⟩ : ∃ k, more = k + 1 := ⟨more - 1, by omega⟩
    rw [tokensWithin?, if_pos blank]
    exact ih read (by omega)
  | case4 steps c rest solid ih =>
    obtain ⟨more, rfl⟩ : ∃ k, more = k + 1 := ⟨more - 1, by omega⟩
    rw [tokensWithin?, if_neg solid]
    cases first : Token.first? (c :: rest) with
    | none =>
      rw [first] at read
      cases read
    | some found =>
      rw [first] at read
      cases after : tokensWithin? steps found.2 with
      | none => simp [after] at read
      | some others => simpa [after, ih found.2 after (Nat.le_of_succ_le_succ le)] using read

theorem tokens?_append (first : Token.first? (c :: cs ++ rest) = some (token, rest))
    (solid : Token.isBlank c = false) (after : tokens? rest = some ts) :
    tokens? (c :: cs ++ rest) = some (token :: ts) := by
  have behind : tokensWithin? (cs ++ rest).length rest = some ts :=
    tokensWithin?_mono after (by simp)
  rw [tokens?, List.cons_append, List.length_cons, tokensWithin?, solid, if_neg Bool.false_ne_true,
    ← List.cons_append, first, Option.bind_eq_bind, Option.bind_some]
  simp only [behind]
  rfl

theorem tokens?_mark (mark : Token.mark? c = some token) (after : tokens? rest = some ts) :
    tokens? (c :: rest) = some (token :: ts) := by
  have first : Token.first? ([c] ++ rest) = some (token, rest) ∧ Token.isBlank c = false := by
    unfold Token.mark? at mark
    split at mark
    case h_7 => cases mark
    all_goals
      cases mark
      exact ⟨rfl, rfl⟩
  exact tokens?_append first.1 first.2 after

theorem tokens?_stringChars (text : Option String) (after : tokens? rest = some ts) :
    tokens? (stringChars text ++ rest) = some (.string text :: ts) := by
  cases text with
  | none => exact tokens?_append (by rfl) (by rfl) after
  | some text =>
    refine tokens?_append ?_ (by rfl) after
    show Token.first? ('"' :: (text.toList.flatMap Quoted.escape ++ ['"'] ++ rest)) = _
    rw [List.append_assoc, Token.first?, List.singleton_append, Quoted.units?_flatMap_escape]
    simp [Quoted.text?_map_toNat]

theorem isNumeric_of_isDigit (digit : c.isDigit) : Token.isNumeric c := by
  simp [Token.isNumeric, digit]

private theorem isNumeric_of_mem_signChars {plusSign negative : Bool}
    (member : c ∈ Numeral.signChars plusSign negative) : Token.isNumeric c := by
  unfold Numeral.signChars at member
  split_ifs at member
  · exact List.mem_singleton.mp member ▸ rfl
  · exact List.mem_singleton.mp member ▸ rfl
  · cases member

private theorem isNumeric_of_mem_exponentChars {plusSign : Bool} {e : Option Int}
    (member : c ∈ Numeral.exponentChars plusSign e) : Token.isNumeric c := by
  cases e with
  | none => cases member
  | some e =>
    rcases List.mem_append.mp member with mark | digits
    · rcases List.mem_cons.mp mark with rfl | sign
      · rfl
      · exact isNumeric_of_mem_signChars sign
    · exact isNumeric_of_isDigit (isDigit_of_mem_toDigits digits)

theorem isNumeric_of_mem_chars {n : Numeral} (wellFormed : n.WellFormed) {plusSign : Bool}
    (member : c ∈ n.chars plusSign) : Token.isNumeric c := by
  simp only [Numeral.chars, List.mem_append] at member
  obtain ((sign | whole) | fraction) | exponent := member
  · exact isNumeric_of_mem_signChars sign
  · exact isNumeric_of_isDigit (wellFormed.whole c whole)
  · split_ifs at fraction
    · cases fraction
    · rcases List.mem_cons.mp fraction with rfl | digit
      · rfl
      · exact isNumeric_of_isDigit (wellFormed.fraction c digit)
  · exact isNumeric_of_mem_exponentChars exponent

theorem isBlank_of_isNumeric (numeric : Token.isNumeric c) : Token.isBlank c = false := by
  simp only [Token.isBlank, Bool.or_eq_false_iff, beq_eq_false_iff_ne]
  refine ⟨⟨⟨?_, ?_⟩, ?_⟩, ?_⟩
  all_goals
    rintro rfl
    exact absurd numeric (by decide)

theorem mark?_of_isNumeric (numeric : Token.isNumeric c) : Token.mark? c = none := by
  unfold Token.mark?
  split
  case h_7 => rfl
  all_goals exact absurd numeric (by decide)

theorem first?_of_isNumeric (numeric : Token.isNumeric c) :
    Token.first? (c :: cs) = (Numeral.ofChars? ((c :: cs).takeWhile Token.isNumeric)).map
      fun numeral => (.number numeral, cs.dropWhile Token.isNumeric) := by
  rw [Token.first?, mark?_of_isNumeric numeric]
  · cases Numeral.ofChars? ((c :: cs).takeWhile Token.isNumeric) <;> rfl
  all_goals
    intros
    subst c
    exact absurd numeric (by decide)

theorem tokens?_numeral {n : Numeral} (wellFormed : n.WellFormed) (plusSign : Bool)
    (outside : StartsOutside Token.isNumeric rest) (after : tokens? rest = some ts) :
    tokens? (n.chars plusSign ++ rest) = some (.number n :: ts) := by
  have read := wellFormed.ofChars?_chars plusSign
  have numeric : ∀ c ∈ n.chars plusSign, Token.isNumeric c := fun _ =>
    isNumeric_of_mem_chars wellFormed
  have nonempty : n.chars plusSign ≠ [] := by simp [Numeral.chars, wellFormed.nonempty]
  obtain ⟨c, cs, same⟩ := List.exists_cons_of_ne_nil nonempty
  rw [same] at read numeric ⊢
  refine tokens?_append ?_ (isBlank_of_isNumeric (numeric c List.mem_cons_self)) after
  have numericTail : ∀ c ∈ cs, Token.isNumeric c := fun c member =>
    numeric c (List.mem_cons_of_mem _ member)
  rw [List.cons_append, first?_of_isNumeric (numeric c List.mem_cons_self),
    dropWhile_append numericTail outside, ← List.cons_append, takeWhile_append numeric outside, read,
    Option.map_some]

end Lexing

/-- A text is cut into the given tokens, whatever follows it, unless that could go on with
a number. -/
def Cuts (cs : List Char) (ts : List Token) : Prop :=
  ∀ rest others, StartsOutside Token.isNumeric rest → tokens? rest = some others →
    tokens? (cs ++ rest) = some (ts ++ others)

namespace Cuts

variable {cs otherCs : List Char} {ts otherTs : List Token}

private theorem startsOutside_mark {c : Char} {token : Token} (mark : Token.mark? c = some token)
    (rest : List Char) : StartsOutside Token.isNumeric (c :: rest) := by
  rintro _ ⟨⟩
  by_contra numeric
  rw [mark?_of_isNumeric (Bool.eq_true_of_not_eq_false numeric)] at mark
  cases mark

theorem append_mark {c : Char} {token : Token} (first : Cuts cs ts)
    (mark : Token.mark? c = some token) (second : Cuts otherCs otherTs) :
    Cuts (cs ++ c :: otherCs) (ts ++ token :: otherTs) := by
  intro rest others outside after
  rw [List.append_assoc, List.append_assoc]
  exact first _ _ (startsOutside_mark mark _) (tokens?_mark mark (second rest others outside after))

theorem nil : Cuts [] [] := fun _ _ _ after => after

theorem string (text : Option String) : Cuts (stringChars text) [.string text] :=
  fun _ _ _ after => tokens?_stringChars text after

theorem items {items : List Json} (all : ∀ item ∈ items, Cuts item.chars item.tokens) :
    Cuts (itemsChars items) (itemsTokens items) := by
  induction items with
  | nil => exact nil
  | cons item items ih =>
    obtain ⟨first, all⟩ := List.forall_mem_cons.mp all
    cases items with
    | nil => exact first
    | cons second items => exact first.append_mark rfl (ih all)

theorem members {members : List (Option String × Json)}
    (all : ∀ member ∈ members, Cuts member.2.chars member.2.tokens) :
    Cuts (membersChars members) (membersTokens members) := by
  induction members with
  | nil => exact nil
  | cons member members ih =>
    obtain ⟨value, all⟩ := List.forall_mem_cons.mp all
    have first := (string member.1).append_mark (c := ':') rfl value
    cases members with
    | nil => exact first
    | cons second members => exact first.append_mark rfl (ih all)

end Cuts

theorem WellFormed.cuts {value : Json} (wellFormed : value.WellFormed) :
    Cuts value.chars value.tokens := by
  induction wellFormed with
  | null => exact fun _ _ _ after => tokens?_append rfl rfl after
  | bool value => cases value <;> exact fun _ _ _ after => tokens?_append rfl rfl after
  | number numeral wellFormed =>
    exact fun _ _ outside after => tokens?_numeral wellFormed _ outside after
  | string text => exact Cuts.string text
  -- The closing mark stands behind the items, so no number among them goes on.
  | array items all ih =>
    exact (Cuts.nil.append_mark (c := '[') rfl (Cuts.items ih)).append_mark (c := ']') rfl Cuts.nil
  | object members all ih =>
    exact (Cuts.nil.append_mark (c := '{') rfl (Cuts.members ih)).append_mark (c := '}') rfl Cuts.nil

section Machine

open Expectation

/-- The tokens of a value, where one is expected, make the machine go on behind that value. -/
def Completes (value : Json) : Prop :=
  ∀ outer mayClose ts, (value.tokens ++ ts).foldlM step (.value outer mayClose) =
    ts.foldlM step (.next outer value)

variable (outer : List Frame) (mayClose : Bool) (ts : List Token)

theorem foldlM_itemsTokens {item : Json} {items : List Json} (before : List Json)
    (all : ∀ other ∈ item :: items, Completes other) :
    (itemsTokens (item :: items) ++ .closeArray :: ts).foldlM step
        (.value (.items before :: outer) mayClose) =
      ts.foldlM step (.next outer (.array (before.reverse ++ item :: items))) := by
  induction items generalizing before item mayClose with
  | nil =>
    rw [itemsTokens, all item List.mem_cons_self]
    simp [step]
  | cons second items ih =>
    obtain ⟨first, all⟩ := List.forall_mem_cons.mp all
    have others := ih false (item :: before) all
    have cut : itemsTokens (item :: second :: items) ++ .closeArray :: ts =
      item.tokens ++ .comma :: (itemsTokens (second :: items) ++ .closeArray :: ts) := by
        simp [itemsTokens]
    rw [cut, first, List.foldlM_cons]
    simpa [step] using others

theorem foldlM_membersTokens {member : Option String × Json} {members : List (Option String × Json)}
    (before : List (Option String × Json)) (all : ∀ other ∈ member :: members, Completes other.2) :
    (membersTokens (member :: members) ++ .closeObject :: ts).foldlM step
        (.key outer before mayClose) =
      ts.foldlM step (.next outer (.object (before.reverse ++ member :: members))) := by
  induction members generalizing before member mayClose with
  | nil =>
    have value := all member List.mem_cons_self (.members before member.1 :: outer) false
      (.closeObject :: ts)
    simpa [membersTokens, step] using value
  | cons second members ih =>
    obtain ⟨first, all⟩ := List.forall_mem_cons.mp all
    have others := ih false (member :: before) all
    have cut : membersTokens (member :: second :: members) ++ .closeObject :: ts =
      .string member.1 :: .colon ::
        (member.2.tokens ++ .comma :: (membersTokens (second :: members) ++ .closeObject :: ts)) := by
        simp [membersTokens]
    -- The key and the colon open the member, its value completes it and the comma closes it.
    have value := first (.members before member.1 :: outer) false
      (.comma :: (membersTokens (second :: members) ++ .closeObject :: ts))
    rw [cut, List.foldlM_cons, step, Option.bind_eq_bind, Option.bind_some, List.foldlM_cons, step,
      Option.bind_eq_bind, Option.bind_some, value, List.foldlM_cons]
    simpa [step] using others

theorem WellFormed.completes {value : Json} (wellFormed : value.WellFormed) : Completes value := by
  -- The lists inside a value are walked by their own lemmas, with what was read of them before.
  induction wellFormed with
  | null => exact fun _ _ _ => rfl
  | bool => exact fun _ _ _ => rfl
  | number => exact fun _ _ _ => rfl
  | string => exact fun _ _ _ => rfl
  | array items _ ih =>
    intro outer mayClose ts
    cases items with
    | nil => rfl
    | cons item items =>
      have cut : (Json.array (item :: items)).tokens ++ ts =
        .openArray :: (itemsTokens (item :: items) ++ .closeArray :: ts) := by simp [tokens]
      rw [cut, List.foldlM_cons]
      exact foldlM_itemsTokens outer true ts [] ih
  | object members _ ih =>
    intro outer mayClose ts
    cases members with
    | nil => rfl
    | cons member members =>
      have cut : (Json.object (member :: members)).tokens ++ ts =
        .openObject :: (membersTokens (member :: members) ++ .closeObject :: ts) := by simp [tokens]
      rw [cut, List.foldlM_cons]
      exact foldlM_membersTokens outer true ts [] ih

end Machine

theorem WellFormed.ofChars?_chars {value : Json} (wellFormed : value.WellFormed) :
    ofChars? value.chars = some value := by
  have cut : tokens? value.chars = some value.tokens := by
    simpa using wellFormed.cuts [] [] (by simp [StartsOutside]) rfl
  have complete := wellFormed.completes [] false []
  rw [List.append_nil] at complete
  rw [ofChars?, cut, Option.bind_eq_bind, Option.bind_some, complete]
  rfl

theorem WellFormed.ofString?_text {value : Json} (wellFormed : value.WellFormed) :
    ofString? value.text = some value := by
  rw [ofString?, text, String.toList_ofList, wellFormed.ofChars?_chars]

end Directivity.Json
