import BoardGpio.Board.Identify
import Mathlib.Data.List.Forall2

/-!
# Lines that do not count

Of a processor description, a board is told by the first line with each of two names. Everything else
in it may come and go: lines without a colon, lines with other names, and later lines with the same
name (`value?_insert`). Since a text of lines that all end with a break is read as these lines
(`lines_text`), no such line changes which board is told or which error (`ofSources_insert`). Carriage
returns before the breaks do not count either (`ofSources_returns`).
-/

set_option autoImplicit false

namespace BoardGpio

namespace CpuInfo

/-- The text of lines that all end with a break. -/
def text (lines : List (List Char)) : String :=
  String.ofList (lines.flatMap fun line => line ++ ['\n'])

/-- The names of the lines that a board is told by. -/
def names : List (List Char) := ["Hardware".toList, "Revision".toList]

/-- The line has no name, or one that does not count. -/
def Unrelated (line : List Char) : Prop :=
  ':' ∉ line ∨ Text.trim (line.takeWhile (· ≠ ':')) ∉ names

/-- A line of the same name comes before this one. -/
def Repeated (before : List (List Char)) (line : List Char) : Prop :=
  ∃ name value, entry? line = some (name, value) ∧
    ∃ earlier ∈ before, ∃ first, entry? earlier = some (name, first)

variable {name line : List Char} {before after : List (List Char)}

/-! ## Reading lines -/

/-- Lines that all end with a break are read as themselves, with nothing after the last break. -/
theorem lines_text (ls : List (List Char)) (hbreaks : ∀ line ∈ ls, '\n' ∉ line) :
    lines (text ls).toList = ls ++ [[]] := by
  rw [text, String.toList_ofList, lines]
  induction ls with
  | nil => rfl
  | cons line ls ih =>
    have hline : '\n' ∉ line := hbreaks line List.mem_cons_self
    have hrest := ih fun l hl => hbreaks l (List.mem_cons_of_mem _ hl)
    rw [List.flatMap_cons, List.append_assoc, List.singleton_append,
      List.splitOn_append_cons_self_of_not_mem hline, hrest, List.cons_append]

theorem entry?_of_not_mem (h : ':' ∉ line) : entry? line = none := if_neg h

/-- The name of an entry is what comes before the first colon. -/
theorem name_of_entry {value : List Char} (h : entry? line = some (name, value)) :
    Text.trim (line.takeWhile (· ≠ ':')) = name := by
  unfold entry? at h
  split at h
  · cases h
    rfl
  · cases h

/-- A line is split at its first colon. -/
theorem entry?_colon {key : List Char} (value : List Char) (hkey : ':' ∉ key) :
    entry? (key ++ ':' :: value) = some (Text.trim key, Text.trim value) := by
  have hall : ∀ c ∈ key, decide (c ≠ ':') = true := by
    intro c hc
    rw [decide_eq_true_eq]
    rintro rfl
    exact hkey hc
  have hmem : ':' ∈ key ++ ':' :: value := by simp
  unfold entry?
  rw [if_pos hmem, List.takeWhile_append_of_pos hall, List.dropWhile_append_of_pos hall]
  simp

theorem trim_return (cs : List Char) : Text.trim (cs ++ ['\r']) = Text.trim cs := by
  have hblank : Text.isBlank '\r' = true := by decide
  rw [Text.trim, Text.trim, List.dropWhile_append]
  cases h : cs.dropWhile Text.isBlank with
  | nil => simp [hblank]
  | cons c rest => simp [Text.trimEnd, hblank]

/-- A carriage return at the end of a line does not count. -/
theorem entry?_return (line : List Char) : entry? (line ++ ['\r']) = entry? line := by
  by_cases hcolon : ':' ∈ line
  · obtain ⟨key, value, rfl, hkey⟩ := List.eq_append_cons_of_mem hcolon
    rw [List.append_assoc, List.cons_append, entry?_colon _ hkey, entry?_colon _ hkey, trim_return]
  · have hreturn : ':' ∉ line ++ ['\r'] := by simp [hcolon]
    rw [entry?_of_not_mem hcolon, entry?_of_not_mem hreturn]

/-! ## The value of a name -/

theorem value?_append (name : List Char) (xs ys : List (List Char)) :
    value? name (xs ++ ys) = (value? name xs).or (value? name ys) :=
  List.findSome?_append

/-- A line gives its value to its name only. -/
theorem value?_singleton_eq_none (h : ∀ value, entry? line ≠ some (name, value)) :
    value? name [line] = none := by
  rw [value?, List.findSome?_cons, List.findSome?_nil]
  cases hentry : entry? line with
  | none => rfl
  | some e =>
    obtain ⟨key, value⟩ := e
    have hkey : key ≠ name := by
      rintro rfl
      exact h value hentry
    simp [hkey]

theorem value?_unrelated (hline : Unrelated line) (hname : name ∈ names) :
    value? name [line] = none := by
  apply value?_singleton_eq_none
  intro value hentry
  rcases hline with hcolon | hother
  · rw [entry?_of_not_mem hcolon] at hentry
    cases hentry
  · rw [name_of_entry hentry] at hother
    exact hother hname

theorem isSome_value? {value : List Char} (hmem : line ∈ before)
    (hentry : entry? line = some (name, value)) : (value? name before).isSome = true := by
  rw [value?, List.findSome?_isSome_iff]
  exact ⟨line, hmem, by simp [hentry]⟩

/-- A line that does not count gives way between any others. -/
theorem value?_insert (hline : Unrelated line ∨ Repeated before line) (hname : name ∈ names) :
    value? name (before ++ line :: after) = value? name (before ++ after) := by
  have hsplit : before ++ line :: after = before ++ ([line] ++ after) := rfl
  rw [hsplit, value?_append, value?_append name [line], value?_append]
  rcases hline with hunrelated | ⟨key, value, hentry, earlier, hmem, first, hfirst⟩
  · rw [value?_unrelated hunrelated hname, Option.none_or]
  · by_cases hkey : key = name
    · subst hkey
      -- The earlier line has told the value already.
      obtain ⟨told, htold⟩ := Option.isSome_iff_exists.mp (isSome_value? hmem hfirst)
      rw [htold, Option.some_or, Option.some_or]
    · have hnone : value? name [line] = none := by
        apply value?_singleton_eq_none
        intro other hother
        rw [hentry] at hother
        cases hother
        exact hkey rfl
      rw [hnone, Option.none_or]

/-- Lines that are the same but for carriage returns at their ends give the same values. -/
theorem value?_returns {xs ys : List (List Char)}
    (h : List.Forall₂ (fun x y => y = x ∨ y = x ++ ['\r']) xs ys) (name : List Char) :
    value? name ys = value? name xs := by
  induction h with
  | nil => rfl
  | cons hline _ ih =>
    have hentry := hline.elim (fun h => congrArg entry? h) fun h => h ▸ entry?_return _
    unfold value? at ih ⊢
    rw [List.findSome?_cons, List.findSome?_cons, hentry, ih]

end CpuInfo

namespace BoardInfo

open CpuInfo

/-- Only the values of the names that count tell a board. -/
theorem ofLines_congr {xs ys : List (List Char)}
    (h : ∀ name ∈ names, value? name xs = value? name ys) (model : Option String) :
    ofLines xs model = ofLines ys model := by
  have hhardware := h "Hardware".toList List.mem_cons_self
  have hrevision := h "Revision".toList (List.mem_cons_of_mem _ List.mem_cons_self)
  unfold ofLines
  rw [hhardware, hrevision]

/-- A line without a name that counts may stand anywhere, and a further line with such a name
anywhere after the first one, usable or not: the same board is told, or the same error. -/
theorem ofSources_insert (before after : List (List Char)) (line : List Char)
    (model : Option String) (hbreaks : ∀ l ∈ before ++ line :: after, '\n' ∉ l)
    (hline : Unrelated line ∨ Repeated before line) :
    ofSources (text (before ++ line :: after)) model = ofSources (text (before ++ after)) model := by
  have hrest : ∀ l ∈ before ++ after, '\n' ∉ l := by
    intro l hl
    apply hbreaks
    rcases List.mem_append.mp hl with hmem | hmem
    · exact List.mem_append_left _ hmem
    · exact List.mem_append_right _ (List.mem_cons_of_mem _ hmem)
  unfold ofSources
  rw [lines_text _ hbreaks, lines_text _ hrest, List.append_assoc, List.append_assoc,
    List.cons_append]
  exact ofLines_congr (fun name hname => value?_insert hline hname) _

/-- A line whose name only ends like one that counts is passed over, and a revision that is no
number is not mended by a later one. -/
theorem ofSources_insert_revision :
    ofSources (text ["Hardware\t: BCM2708".toList, "CPU Revision\t: 7".toList,
        "Revision\t: 000e".toList]) none =
        ofSources (text ["Hardware\t: BCM2708".toList, "Revision\t: 000e".toList]) none ∧
      ofSources (text ["Hardware\t: BCM2708".toList, "Revision\t: none".toList,
        "Revision\t: 000e".toList]) none =
        ofSources (text ["Hardware\t: BCM2708".toList, "Revision\t: none".toList]) none ∧
      ofSources (text ["Hardware\t: BCM2708".toList, "Revision\t: none".toList]) none =
        .error (.unsupportedBoard (.noRevision "BCM2708")) := by
  refine ⟨?_, ?_, by decide +kernel⟩
  · exact ofSources_insert ["Hardware\t: BCM2708".toList] ["Revision\t: 000e".toList] _ none
      (by decide) (.inl (Or.inr (by decide)))
  · exact ofSources_insert ["Hardware\t: BCM2708".toList, "Revision\t: none".toList] [] _ none
      (by decide) (.inr ⟨"Revision".toList, "000e".toList, by decide, "Revision\t: none".toList,
        by decide, "none".toList, by decide⟩)

/-- A line may end with a carriage return before its break. -/
theorem ofSources_returns {xs ys : List (List Char)}
    (h : List.Forall₂ (fun x y => y = x ∨ y = x ++ ['\r']) xs ys) (hbreaks : ∀ l ∈ xs, '\n' ∉ l)
    (model : Option String) : ofSources (text ys) model = ofSources (text xs) model := by
  have hbreaks' : ∀ l ∈ ys, '\n' ∉ l := by
    induction h with
    | nil => simp
    | cons hline _ ih =>
      rw [List.forall_mem_cons] at hbreaks ⊢
      refine ⟨?_, ih hbreaks.2⟩
      rcases hline with rfl | rfl <;> simp [hbreaks.1]
  unfold ofSources
  rw [lines_text _ hbreaks', lines_text _ hbreaks]
  refine ofLines_congr (fun name _ => ?_) _
  rw [value?_append, value?_append, value?_returns h name]

end BoardInfo

end BoardGpio
