import Mathlib.Data.List.DropRight
import RemoteAutomaton.Text.Integer
import RemoteAutomaton.Text.Line

/-!
# Texts that denote integers

A numeral is an optional sign and one or more ASCII digits, and a text `Denotes` an integer if it is
a numeral with nothing but blanks around it.  The reader of integers takes exactly these texts, as
far as 64 bits go, once the blanks have been removed (`readInt64?_trim_eq_some_iff`).  The decimal
text of an integer denotes it (`denotes_toString`), and no text denotes two (`Denotes.unique`).
-/

namespace RemoteAutomaton.Text

/-- One or more ASCII digits. -/
def IsDigits (s : List Char) : Prop := s ≠ [] ∧ ∀ c ∈ s, c.isDigit

/-- An optional sign and digits, and the integer that they denote. -/
inductive Numeral : List Char → Int → Prop
  | plain {s : List Char} (hs : IsDigits s) : Numeral s (Nat.ofDigitChars 10 s 0)
  | plus {s : List Char} (hs : IsDigits s) : Numeral ('+' :: s) (Nat.ofDigitChars 10 s 0)
  | minus {s : List Char} (hs : IsDigits s) : Numeral ('-' :: s) (-(Nat.ofDigitChars 10 s 0 : Int))

/-- A numeral between blanks, and the integer that it denotes. -/
def Denotes (s : List Char) (n : Int) : Prop :=
  ∃ before numeral after, s = before ++ numeral ++ after ∧ (∀ c ∈ before, isBlank c)
    ∧ (∀ c ∈ after, isBlank c) ∧ Numeral numeral n

/-! ### Reading numerals -/

theorem digit?_eq_some_iff {c : Char} {d : Nat} :
    digit? c = some d ↔ c.isDigit ∧ d = c.toNat - '0'.toNat := by
  have hdigit : c.isDigit ↔ '0' ≤ c ∧ c ≤ '9' := by
    rw [Char.isDigit, Bool.and_eq_true, decide_eq_true_eq, decide_eq_true_eq]
    rfl
  rw [digit?]
  by_cases h : '0' ≤ c ∧ c ≤ '9'
  · rw [if_pos h, and_iff_right (hdigit.2 h), Option.some_inj]
    exact eq_comm
  · rw [if_neg h]
    exact ⟨nofun, fun hc => absurd (hdigit.1 hc.1) h⟩

theorem readDigitsFrom?_eq_some_iff {k : Nat} : ∀ {s : List Char} {n : Nat},
    readDigitsFrom? n s = some k ↔ (∀ c ∈ s, c.isDigit) ∧ k = Nat.ofDigitChars 10 s n
  | [], n => by
    rw [readDigitsFrom?, Option.some_inj, and_iff_right (List.forall_mem_nil _)]
    exact eq_comm
  | c :: s, n => by
    simp only [readDigitsFrom?, Option.bind_eq_some_iff, digit?_eq_some_iff,
      readDigitsFrom?_eq_some_iff, List.forall_mem_cons, Nat.ofDigitChars_cons, Nat.mul_comm n]
    constructor
    · rintro ⟨d, ⟨hc, rfl⟩, hs, rfl⟩
      exact ⟨⟨hc, hs⟩, rfl⟩
    · rintro ⟨⟨hc, hs⟩, rfl⟩
      exact ⟨_, ⟨hc, rfl⟩, hs, rfl⟩

theorem readDigits?_eq_some_iff {s : List Char} {k : Nat} :
    readDigits? s = some k ↔ IsDigits s ∧ k = Nat.ofDigitChars 10 s 0 := by
  cases s with
  | nil => simp [readDigits?, IsDigits]
  | cons c s =>
    rw [readDigits?, readDigitsFrom?_eq_some_iff, IsDigits, and_iff_right (List.cons_ne_nil c s)]
    exact nofun

theorem readSigned?_eq_some_iff {s : List Char} {n : Int} :
    readSigned? s = some n ↔ Numeral s n := by
  constructor
  · intro h
    unfold readSigned? at h
    split at h
    all_goals
      obtain ⟨j, hj, rfl⟩ := Option.map_eq_some_iff.1 h
      obtain ⟨k, hk, hjk⟩ := Option.bind_eq_some_iff.1 hj
      obtain ⟨hs, rfl⟩ := readDigits?_eq_some_iff.1 hk
      cases hjk
    · exact .minus hs
    · exact .plus hs
    · exact .plain hs
  · rintro (hs | hs | hs)
    all_goals have hk := readDigits?_eq_some_iff.2 ⟨hs, rfl⟩
    · unfold readSigned?
      split
      · exact absurd (hs.2 '-' List.mem_cons_self) (by decide)
      · exact absurd (hs.2 '+' List.mem_cons_self) (by decide)
      · rw [hk]
        rfl
    · rw [readSigned?, hk]
      rfl
    · rw [readSigned?, hk]
      rfl

/-! ### Blanks around numerals -/

theorem not_isBlank_of_isDigit {c : Char} (h : c.isDigit) : ¬ isBlank c := by
  simp only [Char.isDigit, Bool.and_eq_true, decide_eq_true_eq, ge_iff_le,
    UInt32.le_iff_toNat_le] at h
  have hlow : 48 ≤ c.toNat := h.1
  have hhigh : c.toNat ≤ 57 := h.2
  simp only [isBlank, Bool.or_eq_true, Bool.and_eq_true, decide_eq_true_eq, beq_iff_eq]
  omega

theorem Numeral.not_isBlank {s : List Char} {n : Int} (h : Numeral s n) :
    ∀ c ∈ s, ¬ isBlank c := by
  cases h with
  | plain hs => exact fun c hc => not_isBlank_of_isDigit (hs.2 c hc)
  | plus hs | minus hs =>
    exact List.forall_mem_cons.2 ⟨by decide, fun c hc => not_isBlank_of_isDigit (hs.2 c hc)⟩

theorem Numeral.ne_nil {s : List Char} {n : Int} (h : Numeral s n) : s ≠ [] := by
  cases h with
  | plain hs => exact hs.1
  | plus | minus => exact List.cons_ne_nil _ _

theorem trim_eq (s : List Char) : trim s = (s.dropWhile isBlank).rdropWhile isBlank :=
  rfl

theorem exists_trim (s : List Char) : ∃ before after, s = before ++ trim s ++ after
    ∧ (∀ c ∈ before, isBlank c) ∧ ∀ c ∈ after, isBlank c := by
  refine ⟨s.takeWhile isBlank, (s.dropWhile isBlank).rtakeWhile isBlank, ?_,
    fun c hc => List.mem_takeWhile_imp hc, fun c hc => List.mem_rtakeWhile_imp hc⟩
  rw [trim_eq, List.append_assoc, List.rdropWhile_append_rtakeWhile,
    List.takeWhile_append_dropWhile]

/-- Of blanks around a text without blanks only the text is left. -/
theorem trim_append {before s after : List Char} (hb : ∀ c ∈ before, isBlank c)
    (ha : ∀ c ∈ after, isBlank c) (hs : ∀ c ∈ s, ¬ isBlank c) (hne : s ≠ []) :
    trim (before ++ s ++ after) = s := by
  have hfirst : (before ++ s ++ after).dropWhile isBlank = s ++ after := by
    obtain ⟨c, r, rfl⟩ := List.exists_cons_of_ne_nil hne
    rw [List.append_assoc, List.dropWhile_append_of_pos hb, List.cons_append,
      List.dropWhile_cons_of_neg (hs c List.mem_cons_self)]
  have hlast : (s ++ after).rdropWhile isBlank = s.rdropWhile isBlank := by
    rw [List.rdropWhile, List.reverse_append,
      List.dropWhile_append_of_pos fun c hc => ha c (List.mem_reverse.1 hc)]
    rfl
  rw [trim_eq, hfirst, hlast, List.rdropWhile_eq_self_iff]
  exact fun hl => hs _ (List.getLast_mem hl)

theorem numeral_trim_iff {s : List Char} {n : Int} : Numeral (trim s) n ↔ Denotes s n := by
  constructor
  · intro h
    obtain ⟨before, after, heq, hb, ha⟩ := exists_trim s
    exact ⟨before, trim s, after, heq, hb, ha, h⟩
  · rintro ⟨before, numeral, after, rfl, hb, ha, h⟩
    rwa [trim_append hb ha h.not_isBlank h.ne_nil]

/-- A text without the blanks around it is read as the integer of 64 bits that it denotes. -/
theorem readInt64?_trim_eq_some_iff {s : List Char} {n : Int} :
    readInt64? (trim s) = some n ↔ Denotes s n ∧ IsInt64 n := by
  rw [readInt64?, Option.filter_eq_some_iff, readSigned?_eq_some_iff, numeral_trim_iff,
    decide_eq_true_eq]

/-! ### Decimal texts -/

theorem isDigits_toDigits (n : Nat) : IsDigits (Nat.toDigits 10 n) :=
  ⟨Nat.toDigits_ne_nil, fun _ hc => Nat.isDigit_of_mem_toDigits (by decide) (by decide) hc⟩

theorem numeral_toString (n : Int) : Numeral (toString n).toList n := by
  rw [Int.toString_eq_repr, Int.repr_eq_if]
  split_ifs with hn
  · have h := Numeral.plain (isDigits_toDigits n.toNat)
    rwa [Nat.ofDigitChars_ten_toDigits, Int.toNat_of_nonneg hn, ← Nat.toList_repr] at h
  · have h := Numeral.minus (isDigits_toDigits (-n).toNat)
    rw [Nat.ofDigitChars_ten_toDigits, Int.toNat_of_nonneg (by omega), Int.neg_neg,
      ← Nat.toList_repr] at h
    rwa [String.toList_append]

theorem denotes_toString (n : Int) : Denotes (toString n).toList n :=
  ⟨[], _, [], by simp, List.forall_mem_nil _, List.forall_mem_nil _, numeral_toString n⟩

theorem Denotes.unique {s : List Char} {n m : Int} (hn : Denotes s n) (hm : Denotes s m) :
    n = m := by
  rw [← numeral_trim_iff, ← readSigned?_eq_some_iff] at hn hm
  exact Option.some.inj (hn.symm.trans hm)

/-- The decimal text of an integer is read as the integer, unless 64 bits do not hold it. -/
theorem readInt64?_toString (n : Int) :
    readInt64? (trim (toString n).toList) = if IsInt64 n then some n else none := by
  split_ifs with hn
  · exact readInt64?_trim_eq_some_iff.2 ⟨denotes_toString n, hn⟩
  · rw [Option.eq_none_iff_forall_ne_some]
    intro m hm
    obtain ⟨hden, hm⟩ := readInt64?_trim_eq_some_iff.1 hm
    exact hn ((denotes_toString n).unique hden ▸ hm)

end RemoteAutomaton.Text
