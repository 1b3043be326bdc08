import Mathlib.Tactic.SplitIfs
import RemoteAutomaton.Json.Value

/-!
# Texts and integers as they are written

A text is written character by character, and an integer as its digits.  Splitting what was written
into tokens gives one literal (`scan_renderText`, `scan_number`), and evaluating the literal gives
back the text or the integer (`decode_written`, `value_ofInt`).
-/

namespace RemoteAutomaton.Json

open Decimal (Number)
open Token (scan step)
open Value (escapeChar renderText)

/-! ### Texts -/

/-- The piece that a character is written as: most control characters are written as their code. -/
def Piece.written (c : Char) : Piece :=
  if c < ' ' ∧ c ∉ ['\x08', '\x0c', '\n', '\r', '\t'] then .code c.toNat else .char c

/-- The literal that a text is written as. -/
def Quoted.written (s : String) : Quoted := ⟨s.toList.map Piece.written, none⟩

theorem hexDigit?_digitChar : ∀ d < 16, Text.hexDigit? (Nat.digitChar d) = some d := by decide

theorem toNat_lt_of_control {c : Char} (h : c < ' ') : c.toNat < 32 := h

theorem step_code {c : Char} {d : Nat} (h : Text.hexDigit? c = some d) (pieces : List Piece)
    (value count : Nat) :
    step (.code pieces value count) c
      = if count = 3 then ([], .string (.code (value * 16 + d) :: pieces))
        else ([], .code pieces (value * 16 + d) (count + 1)) := by
  rw [step, h]

/-- The four digits of a control character are read as its code. -/
theorem scan_control {c : Char} (h : c < ' ') (pieces : List Piece) (rest : List Char) :
    scan (.string pieces) ('\\' :: 'u' :: '0' :: '0' :: Nat.digitChar (c.toNat / 16)
        :: Nat.digitChar (c.toNat % 16) :: rest)
      = scan (.string (.code c.toNat :: pieces)) rest := by
  have hc : c.toNat < 32 := toNat_lt_of_control h
  have hstart : scan (.string pieces) ('\\' :: 'u' :: '0' :: '0' :: Nat.digitChar (c.toNat / 16)
        :: Nat.digitChar (c.toNat % 16) :: rest)
      = scan (.code pieces 0 2) (Nat.digitChar (c.toNat / 16)
        :: Nat.digitChar (c.toNat % 16) :: rest) := rfl
  have hcode : (0 * 16 + c.toNat / 16) * 16 + c.toNat % 16 = c.toNat := by omega
  rw [hstart, scan, step_code (hexDigit?_digitChar _ (by omega)), if_neg (by decide), scan,
    step_code (hexDigit?_digitChar _ (by omega)), if_pos rfl, hcode]
  rfl

theorem scan_escapeChar (c : Char) (pieces : List Piece) (rest : List Char) :
    scan (.string pieces) (escapeChar c ++ rest)
      = scan (.string (Piece.written c :: pieces)) rest := by
  unfold escapeChar
  split_ifs with hquote hslash hb hf hn hr ht hcontrol
  iterate 7
    subst c
    rfl
  · rw [Piece.written, if_pos ⟨hcontrol, by simp [*]⟩]
    exact scan_control hcontrol pieces rest
  · have hwritten : Piece.written c = .char c := if_neg fun h => hcontrol h.1
    rw [hwritten]
    simp [scan, step, hquote, hslash, hcontrol]

theorem scan_renderText (s : String) (rest : List Char) :
    scan .start (renderText s ++ rest) = .text (Quoted.written s) :: scan .start rest := by
  have hchars : ∀ (cs : List Char) (pieces : List Piece),
      scan (.string pieces) (cs.flatMap escapeChar ++ '"' :: rest)
        = .text ⟨pieces.reverse ++ cs.map Piece.written, none⟩ :: scan .start rest := by
    intro cs
    induction cs with
    | nil => intro pieces; simp [scan, step]
    | cons c cs ih =>
      intro pieces
      rw [List.flatMap_cons, List.append_assoc, scan_escapeChar, ih]
      simp
  have hopen : scan .start ('"' :: (s.toList.flatMap escapeChar ++ '"' :: rest))
      = scan (.string []) (s.toList.flatMap escapeChar ++ '"' :: rest) := rfl
  rw [renderText, List.cons_append, List.cons_append, List.append_assoc]
  exact hopen.trans (hchars s.toList [])

theorem decodePieces_written : ∀ (cs done : List Char),
    decodePieces none done (cs.map Piece.written) = .ok (done.reverse ++ cs)
  | [], done => by simp [decodePieces]
  | c :: cs, done => by
    have ih := decodePieces_written cs (c :: done)
    rw [List.reverse_cons, List.append_assoc, List.singleton_append] at ih
    rw [List.map_cons, ← ih]
    by_cases h : c < ' ' ∧ c ∉ ['\x08', '\x0c', '\n', '\r', '\t']
    · have hc : c.toNat < 32 := toNat_lt_of_control h.1
      have htrail : isTrail c.toNat = false := by simp [isTrail]; omega
      have hlead : isLead c.toNat = false := by simp [isLead]; omega
      rw [Piece.written, if_pos h, decodePieces.eq_def]
      simp [htrail, hlead, Char.ofNat_toNat]
    · rw [Piece.written, if_neg h]
      rfl

theorem decode_written (s : String) : (Quoted.written s).decode = .ok s := by
  rw [Quoted.decode, Quoted.written, decodePieces_written]
  exact congrArg Except.ok String.ofList_toList

/-! ### Integers -/

/-- The decimal digits of a number, from the highest, without needless zeros. -/
inductive Digits : Nat → List Nat → Prop
  | one (d : Nat) (hd : d < 10) : Digits d [d]
  | more {n : Nat} {ds : List Nat} (h : Digits n ds) (hn : 0 < n) (d : Nat) (hd : d < 10) :
      Digits (n * 10 + d) (ds ++ [d])

theorem digits_toDigits (n : Nat) :
    ∃ ds, Digits n ds ∧ Nat.toDigits 10 n = ds.map Nat.digitChar := by
  by_cases hn : n < 10
  · exact ⟨[n], .one n hn, Nat.toDigits_of_lt_base hn⟩
  · obtain ⟨ds, h, hds⟩ := digits_toDigits (n / 10)
    have hmore := h.more (by omega) (n % 10) (by omega)
    rw [show n / 10 * 10 + n % 10 = n by omega] at hmore
    refine ⟨_, hmore, ?_⟩
    rw [Nat.toDigits_of_base_le (by decide) (by omega), hds, List.map_append]
    rfl

theorem takeWhole_append (xs ys : List Nat) (s : Significand) :
    takeWhole s (xs ++ ys) = takeWhole (takeWhole s xs) ys := by
  induction xs generalizing s with
  | nil => rfl
  | cons x xs ih =>
    rw [List.cons_append, takeWhole, takeWhole]
    split <;> exact ih _

namespace Digits

variable {n : Nat} {ds : List Nat}

theorem lt_ten (h : Digits n ds) : ∀ d ∈ ds, d < 10 := by
  induction h with
  | one d hd => simpa using hd
  | more _ _ d hd ih =>
    intro x hx
    rcases List.mem_append.1 hx with hx | hx
    · exact ih x hx
    · rwa [List.mem_singleton.1 hx]

/-- Only zero begins with a zero. -/
theorem leading (h : Digits n ds) : (n = 0 ∧ ds = [0]) ∨ ∃ d r, ds = d :: r ∧ d ≠ 0 := by
  induction h with
  | one d hd =>
    by_cases hz : d = 0
    · exact .inl ⟨hz, by rw [hz]⟩
    · exact .inr ⟨d, [], rfl, hz⟩
  | more h hn d hd ih =>
    rcases ih with ⟨hz, -⟩ | ⟨x, r, rfl, hx⟩
    · omega
    · exact .inr ⟨x, r ++ [d], rfl, hx⟩

/-- Digits of at most 64 bits are all read. -/
theorem takeWhole_eq (h : Digits n ds) (hn : n < 0x10000000000000000) :
    takeWhole ⟨0, 0⟩ ds = ⟨n, 0⟩ := by
  induction h with
  | one d hd => simp [takeWhole, fits, hn]
  | @more n ds h _ d _ ih =>
    have hfits : fits n d = true := by
      rw [fits]
      exact decide_eq_true hn
    rw [takeWhole_append, ih (by omega), takeWhole, if_pos ⟨rfl, hfits⟩]
    rfl

end Digits

theorem decimalDigit?_digitChar : ∀ d < 10, decimalDigit? (Nat.digitChar d) = some d := by decide

theorem begin_digitChar : ∀ d < 10, d ≠ 0 →
    Token.begin (Nat.digitChar d) = ([], .whole false [d]) := by decide

theorem step_minus : ∀ d < 10, d ≠ 0 →
    step .minus (Nat.digitChar d) = ([], .whole true [d]) := by decide

theorem sub_digitChar : ∀ d < 10, (Nat.digitChar d).toNat - '0'.toNat = d := by decide

/-- The literal that an integer is written as. -/
def Numeral.ofInt (n : Int) : Numeral := { Numeral.ofNat n.natAbs with negative := n < 0 }

/-- What cannot go on a number of some digits. -/
def EndsNumber (rest : List Char) : Prop :=
  ∀ c r, rest = c :: r → decimalDigit? c = none ∧ c ≠ '.' ∧ c ≠ 'e' ∧ c ≠ 'E'

section Scan

variable {mode : Mode} {n : Numeral} {rest : List Char}

/-- A number ends where nothing goes on with it. -/
theorem scan_end (hrest : EndsNumber rest) (hfinish : Token.finish mode = [.number n])
    (hstep : ∀ c, decimalDigit? c = none → step mode c = Token.afterDigits n true c) :
    scan mode rest = .number n :: scan .start rest := by
  cases rest with
  | nil => rw [scan, hfinish]; rfl
  | cons c r =>
    obtain ⟨hdigit, hpoint, he, hE⟩ := hrest c r rfl
    rw [scan, hstep c hdigit, Token.afterDigits, if_neg (fun h => hpoint h.1),
      if_neg (fun h => h.elim he hE)]
    rfl

theorem scan_whole (hrest : EndsNumber rest) (negative : Bool) : ∀ (ds done : List Nat),
    (∀ d ∈ ds, d < 10) → scan (.whole negative done) (ds.map Nat.digitChar ++ rest)
      = .number (Token.wholeNumber negative (ds.reverse ++ done)) :: scan .start rest
  | [], done, _ => scan_end hrest rfl fun c hc => by rw [step, hc]; rfl
  | d :: ds, done, hds => by
    have hd := decimalDigit?_digitChar d (hds d List.mem_cons_self)
    have ih := scan_whole hrest negative ds (d :: done) fun x hx =>
      hds x (List.mem_cons_of_mem d hx)
    rw [List.map_cons, List.cons_append, scan, step, hd, List.reverse_cons, List.append_assoc]
    exact ih

/-- Digits are one literal, and so are digits after a minus sign. -/
theorem scan_digits (hrest : EndsNumber rest) {k : Nat} {ds : List Nat} (h : Digits k ds) :
    scan .start (ds.map Nat.digitChar ++ rest)
        = .number ⟨false, ds, [], none⟩ :: scan .start rest
      ∧ scan .minus (ds.map Nat.digitChar ++ rest)
        = .number ⟨true, ds, [], none⟩ :: scan .start rest := by
  rcases h.leading with ⟨-, rfl⟩ | ⟨d, r, rfl, hd⟩
  · have hzero : ∀ negative, scan (.zero negative) rest
        = .number (Token.wholeNumber negative [0]) :: scan .start rest := fun negative =>
      scan_end hrest rfl fun c hc => by rw [step, hc]
    exact ⟨hzero false, hzero true⟩
  · have hten : d < 10 := h.lt_ten d List.mem_cons_self
    have hr : ∀ x ∈ r, x < 10 := fun x hx => h.lt_ten x (List.mem_cons_of_mem d hx)
    have hwhole : ∀ negative, scan (.whole negative [d]) (r.map Nat.digitChar ++ rest)
        = .number ⟨negative, d :: r, [], none⟩ :: scan .start rest := fun negative => by
      rw [scan_whole hrest negative r [d] hr, Token.wholeNumber, List.reverse_append,
        List.reverse_reverse]
      rfl
    have hstart : step .start (Nat.digitChar d) = ([], .whole false [d]) :=
      begin_digitChar d hten hd
    rw [List.map_cons, List.cons_append, scan, scan, step_minus d hten hd, hstart]
    exact ⟨hwhole false, hwhole true⟩

theorem exists_digits (n : Int) : ∃ ds, Digits n.natAbs ds
    ∧ Nat.toDigits 10 n.natAbs = ds.map Nat.digitChar
    ∧ Numeral.ofInt n = ⟨n < 0, ds, [], none⟩ := by
  obtain ⟨ds, h, hds⟩ := digits_toDigits n.natAbs
  have hwhole : (ds.map Nat.digitChar).map (fun c => c.toNat - '0'.toNat) = ds := by
    rw [List.map_map]
    exact (List.map_congr_left fun d hd => sub_digitChar d (h.lt_ten d hd)).trans (List.map_id ds)
  refine ⟨ds, h, hds, ?_⟩
  rw [Numeral.ofInt, Numeral.ofNat, hds, hwhole]

theorem scan_number (hrest : EndsNumber rest) (n : Int) :
    scan .start ((Number.integer n).text.toList ++ rest)
      = .number (Numeral.ofInt n) :: scan .start rest := by
  obtain ⟨ds, h, hds, hn⟩ := exists_digits n
  obtain ⟨hstart, hminus⟩ := scan_digits hrest h
  rw [hn]
  cases n with
  | ofNat k =>
    have htext : (Number.integer (.ofNat k)).text.toList = ds.map Nat.digitChar :=
      Nat.toList_repr.trans hds
    rw [htext, hstart]
    rfl
  | negSucc k =>
    have htext : (Number.integer (.negSucc k)).text.toList = '-' :: ds.map Nat.digitChar := by
      rw [← hds]
      exact String.toList_append.trans (congrArg ('-' :: ·) Nat.toList_repr)
    rw [htext, decide_eq_true (Int.negSucc_lt_zero k)]
    exact hminus

end Scan

/-- An integer of 64 bits, signed or unsigned, is the value of its literal. -/
theorem value_ofInt {n : Int} (hlow : -0x8000000000000000 ≤ n) (hhigh : n < 0x10000000000000000) :
    (Numeral.ofInt n).value = .ok (.integer n) := by
  obtain ⟨ds, h, -, hn⟩ := exists_digits n
  have hvalue : (Numeral.ofInt n).value = Significand.integral ⟨n.natAbs, 0⟩ (n < 0) := by
    rw [hn, ← h.takeWhole_eq (by omega)]
    rfl
  rw [hvalue, Significand.integral, if_neg (fun h => h rfl)]
  by_cases hneg : n < 0
  · have hkept : ¬ (n.natAbs = 0 ∨ 0x8000000000000000 < n.natAbs) := by omega
    have habs : -(n.natAbs : Int) = n := by omega
    rw [decide_eq_true hneg, if_pos rfl, if_neg hkept, habs]
  · have habs : (n.natAbs : Int) = n := by omega
    rw [decide_eq_false hneg, if_neg Bool.false_ne_true, habs]

end RemoteAutomaton.Json
