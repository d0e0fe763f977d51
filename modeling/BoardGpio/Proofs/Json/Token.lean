import BoardGpio.Json.Render
import BoardGpio.Json.Scan
import Mathlib.Data.List.TakeDrop

/-!
# Written tokens are read back

What the writer puts down for a whole number or a string is what the scanner takes for it, and it
takes nothing of the text that follows (`number_written`, `text_escape`). After a number the text
has to go on with something that no number goes on with (`Ends`).
-/

set_option autoImplicit false

namespace BoardGpio.Json

/-- A text that no number reaches into: it does not go on with a digit, a point or an exponent. -/
def Ends (rest : List Char) : Prop :=
  ∀ c ∈ rest.head?, c.isDigit = false ∧ c ≠ '.' ∧ c ≠ 'e' ∧ c ≠ 'E'

theorem ends_nil : Ends [] := by
  intro c hc
  cases hc

theorem ends_cons {c : Char} (rest : List Char)
    (hc : c.isDigit = false ∧ c ≠ '.' ∧ c ≠ 'e' ∧ c ≠ 'E') : Ends (c :: rest) := by
  intro d hd
  cases hd
  exact hc

/-! ## Blanks and literals -/

theorem skipSpace_append {blanks : List Char} (hblanks : ∀ c ∈ blanks, isSpace c = true)
    (rest : List Char) : skipSpace (blanks ++ rest) = skipSpace rest :=
  List.dropWhile_append_of_pos hblanks

theorem skipSpace_cons {c : Char} (hc : isSpace c = false) (rest : List Char) :
    skipSpace (c :: rest) = c :: rest := by
  simp [skipSpace, hc]

theorem literal_append (word rest : List Char) : literal word (word ++ rest) = .ok rest := by
  induction word with
  | nil => rfl
  | cons w word ih => simp [literal, ih]

/-! ## Numbers -/

theorem spanDigits_append {ds rest : List Char} (hds : ∀ c ∈ ds, c.isDigit = true)
    (hrest : Ends rest) : spanDigits (ds ++ rest) = (ds, rest) := by
  have hstop : rest.takeWhile Char.isDigit = [] ∧ rest.dropWhile Char.isDigit = rest := by
    cases rest with
    | nil => simp
    | cons c rest => simp [(hrest c rfl).1]
  rw [spanDigits, List.span_eq_takeWhile_dropWhile, List.takeWhile_append_of_pos hds,
    List.dropWhile_append_of_pos hds, hstop.1, hstop.2, List.append_nil]

theorem isDigit_of_mem_toDigits {n : Nat} {c : Char} (hc : c ∈ Nat.toDigits 10 n) :
    c.isDigit = true :=
  Nat.isDigit_of_mem_toDigits (by omega) (by omega) hc

/-- A written number starts with a digit, and with a zero only if it is zero. -/
theorem head_toDigits (n : Nat) :
    ∃ d more, Nat.toDigits 10 n = d :: more ∧ d.isDigit = true ∧ (d = '0' → more = []) := by
  induction n using Nat.strongRecOn with
  | ind n ih =>
    by_cases hn : n < 10
    · have hdigits : Nat.toDigits 10 n = [n.digitChar] := Nat.toDigits_of_lt_base hn
      refine ⟨n.digitChar, [], hdigits, ?_, ?_⟩
      · apply isDigit_of_mem_toDigits (n := n)
        rw [hdigits]
        exact List.mem_singleton_self _
      · intro _
        rfl
    · obtain ⟨d, more, hdigits, hd, hzero⟩ := ih (n / 10) (by omega)
      refine ⟨d, more ++ [(n % 10).digitChar], ?_, hd, ?_⟩
      · rw [Nat.toDigits_of_base_le (by omega) (by omega), hdigits, List.cons_append]
      · -- the digits before the last one stand for a number that is not zero
        intro hnull
        exfalso
        have hvalue := Nat.ofDigitChars_ten_toDigits (n := n / 10)
        rw [hdigits, hzero hnull, hnull] at hvalue
        simp [Nat.ofDigitChars_cons] at hvalue
        omega

theorem wholeDigits_written (n : Nat) {rest : List Char} (hrest : Ends rest) :
    wholeDigits (Nat.toDigits 10 n ++ rest) = .ok (Nat.toDigits 10 n, rest) := by
  have hspan := spanDigits_append (fun c => isDigit_of_mem_toDigits (n := n)) hrest
  obtain ⟨d, more, hdigits, -, hzero⟩ := head_toDigits n
  rw [wholeDigits, hspan, hdigits]
  simp only
  rw [if_neg]
  rintro ⟨hd, hmore⟩
  simp [hzero hd] at hmore

theorem le_ofDigitChars (ds : List Char) (acc : Nat) : acc ≤ Nat.ofDigitChars 10 ds acc := by
  induction ds generalizing acc with
  | nil => simp
  | cons d ds ih =>
    rw [Nat.ofDigitChars_cons]
    have := ih (10 * acc + (d.toNat - '0'.toNat))
    omega

/-- Digits whose value stays within the bound are all taken. -/
theorem accumulate_fits (ds : List Char) (acc taken : Nat)
    (hfits : Nat.ofDigitChars 10 ds acc ≤ significandMax) :
    accumulate acc taken ds = (Nat.ofDigitChars 10 ds acc, taken + ds.length, 0) := by
  induction ds generalizing acc taken with
  | nil => simp [accumulate]
  | cons d ds ih =>
    rw [Nat.ofDigitChars_cons] at hfits ⊢
    have hnext : 10 * acc + digitValue d ≤ significandMax :=
      Nat.le_trans (le_ofDigitChars ds _) hfits
    have hrest := ih (10 * acc + digitValue d) (taken + 1) hfits
    rw [accumulate, if_pos hnext, hrest, List.length_cons, Nat.add_comm ds.length 1,
      ← Nat.add_assoc]
    rfl

/-- A whole number of 64 bits is read back from its digits. -/
theorem number_written {n : Nat} (hn : n ≤ significandMax) {rest : List Char}
    (hrest : Ends rest) :
    number false (Nat.toDigits 10 n ++ rest) = .ok (.natural n, rest) := by
  have hvalue := Nat.ofDigitChars_ten_toDigits (n := n)
  have hall := accumulate_fits (Nat.toDigits 10 n) 0 0 (by omega)
  rw [hvalue] at hall
  have hwhole : wholeNumber false n = .natural n := rfl
  rw [number, wholeDigits_written n hrest]
  simp only [bind, Except.bind, hall]
  cases rest with
  | nil => rfl
  | cons c rest =>
    obtain ⟨-, hpoint, he, hE⟩ := hrest c rfl
    split
    · rename_i heq
      cases heq
      exact absurd rfl hpoint
    · rename_i heq
      cases heq
      rw [if_neg (by simp [he, hE]), hwhole]
    · rename_i heq
      cases heq

/-! ## Strings -/

theorem unit?_control {n : Nat} (hn : n < 0x20) :
    unit? '0' '0' (Nat.digitChar (n / 16)) (Nat.digitChar (n % 16)) = some n := by
  have hall : ∀ n < 0x20,
      unit? '0' '0' (Nat.digitChar (n / 16)) (Nat.digitChar (n % 16)) = some n := by decide
  exact hall n hn

theorem text_quote (rest : List Char) : text ('"' :: rest) = .ok ([], rest) := by
  rw [text.eq_def]
  rfl

/-- A character is read back from its escape. -/
theorem text_escapeChar (c : Char) (rest : List Char) :
    text (escapeChar c ++ rest) = prepend c (text rest) := by
  unfold escapeChar
  cases hletter : escapeLetter? c with
  | some e =>
    have hshort : shortEscape? e = some c ∧ e ≠ 'u' := by
      unfold escapeLetter? at hletter
      repeat' split at hletter
      all_goals first
        | (cases hletter; subst_vars; decide)
        | cases hletter
    simp only [List.cons_append, List.nil_append]
    rw [text.eq_def]
    simp only
    rw [if_neg (by decide), if_pos trivial]
    split
    · rename_i heq
      cases heq
      exact absurd rfl hshort.2
    · rename_i heq
      cases heq
      rw [hshort.1]
    · rename_i heq
      cases heq
  | none =>
    simp only
    by_cases hcontrol : c.toNat < 0x20
    · rw [if_pos hcontrol]
      have hplain : isTrailing c.toNat = false ∧ isLeading c.toNat = false := by
        simp [isTrailing, isLeading]
        omega
      simp only [List.cons_append, List.nil_append]
      rw [text.eq_def]
      simp only
      rw [if_neg (by decide), if_pos trivial, unit?_control hcontrol]
      simp [hplain.1, hplain.2]
    · rw [if_neg hcontrol]
      have hquote : c ≠ '"' := by
        rintro rfl
        simp [escapeLetter?] at hletter
      have hslash : c ≠ '\\' := by
        rintro rfl
        simp [escapeLetter?] at hletter
      simp only [List.cons_append, List.nil_append]
      rw [text.eq_def]
      simp only
      rw [if_neg hquote, if_neg hslash, if_neg hcontrol]

/-- A string is read back from its escaped form, whatever its characters. -/
theorem text_escape (cs rest : List Char) :
    text (cs.flatMap escapeChar ++ '"' :: rest) = .ok (cs, rest) := by
  induction cs with
  | nil => exact text_quote rest
  | cons c cs ih =>
    rw [List.flatMap_cons, List.append_assoc, text_escapeChar, ih]
    rfl

end BoardGpio.Json
