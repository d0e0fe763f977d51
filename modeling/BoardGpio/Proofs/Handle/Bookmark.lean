import BoardGpio.Proofs.Handle.ChipNumbers
import BoardGpio.Proofs.Handle.Uses

/-!
# The cursor is a place in the list of pins

A bookmark is a place in the ascending list of the pins of a numbering (`Bookmark`): it is moved by
one pin, put to either end, or put to the front of another list by a change of numbering. A handle
keeps the list and counts the pins before its cursor instead. The two agree (`Bookmark.At`): what a
call on a handle answers about its cursor is what the bookmark answers, and they agree again
afterwards (`Bookmark.At.handleCall`). Calls on pins make records at most and leave the cursor where
it is (`Gpio.borne_of_unrecorded`).
-/

set_option autoImplicit false

namespace BoardGpio

open Bench

/-! ## Places in a list -/

namespace Handle.Zipper

variable {z : Zipper} {pin : Nat}

/-- The list that the place is in. -/
def whole (z : Zipper) : List Nat := z.before.reverse ++ z.after

/-- The place after all elements of a list. -/
def finish (xs : List Nat) : Zipper := ⟨xs.reverse, []⟩

theorem whole_start (xs : List Nat) : (start xs).whole = xs := rfl

theorem whole_finish (xs : List Nat) : (finish xs).whole = xs := by
  simp [whole, finish]

theorem whole_next (z : Zipper) : z.next.2.whole = z.whole := by
  obtain ⟨before, _ | ⟨x, after⟩⟩ := z
  · rfl
  · simp [next, whole]

theorem whole_previous (z : Zipper) : z.previous.2.whole = z.whole := by
  obtain ⟨_ | ⟨x, before⟩, after⟩ := z
  · rfl
  · simp [previous, whole]

end Handle.Zipper

/-! ## The place of the cursor -/

namespace Handle

variable {h : Handle} {pin : Nat}

theorem zipper_next (h : Handle) : h.zipper.next = (h.next.1, h.next.2.zipper) := by
  cases hpin : h.order[h.cursor]? with
  | none =>
    have hdrop : h.order.drop h.cursor = [] :=
      List.drop_eq_nil_of_le (List.getElem?_eq_none_iff.mp hpin)
    simp only [zipper, next, hpin, hdrop, Zipper.next]
  | some pin =>
    obtain ⟨hlt, rfl⟩ := List.getElem?_eq_some_iff.mp hpin
    simp only [zipper, next, hpin, List.drop_eq_getElem_cons hlt, Zipper.next,
      List.take_succ_eq_append_getElem hlt, List.reverse_append, List.reverse_singleton,
      List.singleton_append]

theorem zipper_previous (hin : h.cursor ≤ h.order.length) :
    h.zipper.previous = (h.previous.1, h.previous.2.zipper) := by
  cases hcursor : h.cursor with
  | zero => simp only [zipper, previous, hcursor, List.take_zero, List.reverse_nil, Zipper.previous]
  | succ i =>
    have hlt : i < h.order.length := by omega
    simp only [zipper, previous, hcursor, List.take_succ_eq_append_getElem hlt,
      List.reverse_append, List.reverse_singleton, List.singleton_append, Zipper.previous,
      List.getElem?_eq_getElem hlt, ← List.drop_eq_getElem_cons hlt]

theorem zipper_toFront (h : Handle) : h.toFront.zipper = .start h.order := rfl

theorem zipper_toBack (h : Handle) : h.toBack.zipper = .finish h.order := by
  simp [toBack, zipper, Zipper.finish]

theorem hasNext_eq (h : Handle) : h.hasNext = !h.zipper.after.isEmpty := by
  rw [Bool.eq_iff_iff, Bool.not_eq_true', List.isEmpty_eq_false_iff, hasNext, decide_eq_true_eq]
  show h.cursor < h.order.length ↔ h.order.drop h.cursor ≠ []
  rw [Ne, List.drop_eq_nil_iff]
  omega

theorem hasPrevious_eq (hin : h.cursor ≤ h.order.length) :
    h.hasPrevious = !h.zipper.before.isEmpty := by
  rw [Bool.eq_iff_iff, Bool.not_eq_true', List.isEmpty_eq_false_iff, hasPrevious,
    decide_eq_true_eq]
  show 0 < h.cursor ↔ (h.order.take h.cursor).reverse ≠ []
  rw [Ne, List.reverse_eq_nil_iff, List.take_eq_nil_iff, ← List.length_eq_zero_iff]
  omega

end Handle

/-! ## Bookmarks -/

/-- A numbering, and a place between its pins on a table. -/
structure Bookmark (t : PinTable) where
  numbering : Numbering
  place : Handle.Zipper
  whole : place.whole = t.pins numbering

namespace Bookmark

variable {t : PinTable}

def front (t : PinTable) (n : Numbering) : Bookmark t where
  numbering := n
  place := .start (t.pins n)
  whole := Handle.Zipper.whole_start _

def back (t : PinTable) (n : Numbering) : Bookmark t where
  numbering := n
  place := .finish (t.pins n)
  whole := Handle.Zipper.whole_finish _

def next (m : Bookmark t) : Option Nat × Bookmark t :=
  (m.place.next.1,
    { m with place := m.place.next.2, whole := (Handle.Zipper.whole_next _).trans m.whole })

def previous (m : Bookmark t) : Option Nat × Bookmark t :=
  (m.place.previous.1,
    { m with place := m.place.previous.2, whole := (Handle.Zipper.whole_previous _).trans m.whole })

/-- A change to the same numbering leaves the bookmark where it is. -/
def setNumbering (m : Bookmark t) (n : Numbering) : Bookmark t :=
  if m.numbering = n then m else front t n

/-- What a call on a handle is answered, as far as the bookmark knows, and where it is then. -/
def perform (m : Bookmark t) : HandleCall → Option Answer × Bookmark t
  | .numbering => (some (.text m.numbering.word), m)
  | .setNumbering n => (some .done, m.setNumbering n)
  | .pins => (some (.numbers (t.pins m.numbering)), m)
  | .toFront => (some .done, front t m.numbering)
  | .toBack => (some .done, back t m.numbering)
  | .hasNext => (some (.flag !m.place.after.isEmpty), m)
  | .hasPrevious => (some (.flag !m.place.before.isEmpty), m)
  | .next => (some (.number? m.next.1), m.next.2)
  | .previous => (some (.number? m.previous.1), m.previous.2)
  | _ => (none, m)

/-- The cursor of the handle is at the bookmark, and the handle has a record for every pin of its
table. -/
structure At (m : Bookmark t) (h : Handle) : Prop where
  table : h.table = t
  covered : ∀ mcu ∈ PinTable.used t.logical, mcu < h.records.size
  numbering : h.numbering = m.numbering
  order : h.order = t.pins m.numbering
  within : h.cursor ≤ h.order.length
  place : h.zipper = m.place

end Bookmark

/-! ## What calls on pins leave alone -/

/-- A fact about handles that neither a record nor the mark of the release bears on. -/
structure Handle.Unrecorded (P : Handle → Prop) : Prop where
  record : ∀ h mcu f, P h → P (h.updateRecord mcu f)
  released : ∀ h, P h → P { h with released := true }

namespace Gpio

variable {β α : Type} {P : Handle → Prop}

/-- The fact holds of the handle. -/
def Has (P : Handle → Prop) (g : Gpio β) : Prop := P g.handle

theorem has_hardware (x : Act β α) : (hardware x).Keeps (Has P) := fun _ hg => hg

theorem has_note (n : Notice) : (note n : Act (Gpio β) Unit).Keeps (Has P) := fun _ hg => hg

section

variable (hP : Handle.Unrecorded P)
include hP

theorem has_record (mcu : Nat) (f : PinRecord → PinRecord) :
    (update fun h => h.updateRecord mcu f : Act (Gpio β) Unit).Keeps (Has P) :=
  fun g hg => hP.record g.handle mcu f hg

variable [Backend β]

omit hP in
theorem has_switch (mcu : Nat) (m : Mode) :
    (switch mcu m : Act (Gpio β) Unit).Keeps (Has P) :=
  (has_hardware _).bind fun _ => Act.Keeps.modify fun _ hg => hg

/-- Calls on pins change the records of the handle at most. -/
theorem borne_of_unrecorded : Borne (Has P : Gpio β → Prop) where
  askMode _ := has_hardware _
  askPull _ := has_hardware _
  writeMcu _ _ := has_hardware _
  toggleMcu _ := has_hardware _
  readMcu _ := has_hardware _
  setMode pin m :=
    (leaves_mcuPin pin).keeps.bind fun mcu => (has_hardware _).bind fun _ =>
      (has_switch mcu m).bind fun _ => (has_record hP mcu _).bind fun _ => has_note _
  setPull pin _ :=
    (leaves_mcuPin pin).keeps.bind fun mcu => (has_hardware _).bind fun _ =>
      (has_hardware _).bind fun _ => has_record hP mcu _
  note := has_note

end

end Gpio

/-! ## Handles at a bookmark -/

namespace Bookmark

variable {β : Type} {t : PinTable} {m : Bookmark t} {h : Handle}

theorem unrecorded_at (m : Bookmark t) : Handle.Unrecorded m.At where
  record _ _ _ hm :=
    ⟨hm.table, fun k hk => (hm.covered k hk).trans_eq Array.size_modify.symm, hm.numbering,
      hm.order, hm.within, hm.place⟩
  released _ hm := ⟨hm.table, hm.covered, hm.numbering, hm.order, hm.within, hm.place⟩

theorem At.ascending (hm : m.At h) (ht : t.Accepted) (hn : t.Numbered) :
    h.order.Pairwise (· < ·) := by
  rw [hm.order]
  exact ht.ascending_pins hn m.numbering

theorem At.toFront (hm : m.At h) : (front t m.numbering).At h.toFront where
  table := hm.table
  covered := hm.covered
  numbering := hm.numbering
  order := hm.order
  within := Nat.zero_le _
  place := h.zipper_toFront.trans (congrArg _ hm.order)

theorem At.toBack (hm : m.At h) : (back t m.numbering).At h.toBack where
  table := hm.table
  covered := hm.covered
  numbering := hm.numbering
  order := hm.order
  within := Nat.le_refl _
  place := h.zipper_toBack.trans (congrArg _ hm.order)

theorem At.next (hm : m.At h) : h.next.1 = m.next.1 ∧ m.next.2.At h.next.2 := by
  have hz := h.zipper_next
  rw [hm.place] at hz
  refine ⟨(congrArg Prod.fst hz).symm, ?_⟩
  have hplace : h.next.2.zipper = m.place.next.2 := (congrArg Prod.snd hz).symm
  unfold Handle.next at hplace ⊢
  cases hpin : h.order[h.cursor]? with
  | none =>
    rw [hpin] at hplace
    exact ⟨hm.table, hm.covered, hm.numbering, hm.order, hm.within, hplace⟩
  | some pin =>
    rw [hpin] at hplace
    have hlt := (List.getElem?_eq_some_iff.mp hpin).1
    exact ⟨hm.table, hm.covered, hm.numbering, hm.order, hlt, hplace⟩

theorem At.previous (hm : m.At h) :
    h.previous.1 = m.previous.1 ∧ m.previous.2.At h.previous.2 := by
  have hz := Handle.zipper_previous hm.within
  rw [hm.place] at hz
  refine ⟨(congrArg Prod.fst hz).symm, ?_⟩
  have hplace : h.previous.2.zipper = m.place.previous.2 := (congrArg Prod.snd hz).symm
  have hin := hm.within
  unfold Handle.previous at hplace ⊢
  cases hcursor : h.cursor with
  | zero =>
    rw [hcursor] at hplace
    exact ⟨hm.table, hm.covered, hm.numbering, hm.order, hm.within, hplace⟩
  | succ i =>
    rw [hcursor] at hplace hin
    exact ⟨hm.table, hm.covered, hm.numbering, hm.order, Nat.le_of_lt hin, hplace⟩

theorem At.setNumbering (hm : m.At h) (n : Numbering) :
    (m.setNumbering n).At (h.setNumbering n) := by
  rw [Bookmark.setNumbering, Handle.setNumbering, hm.numbering]
  split
  · exact hm
  · exact ⟨hm.table, hm.covered, rfl, congrArg (PinTable.pins · n) hm.table, Nat.zero_le _,
      congrArg (fun t => Handle.Zipper.start (PinTable.pins t n)) hm.table⟩

/-- A change of numbering of the handle is one of the bookmark. -/
theorem At.setNumberingCall {g : Gpio β} (hm : m.At g.handle) (n : Numbering) :
    ((Gpio.setNumbering n).run g).1 = .ok () ∧
      (m.setNumbering n).At ((Gpio.setNumbering n).run g).2.handle := by
  have hset := hm.setNumbering n
  rw [Gpio.setNumbering, Act.run_bind_ok _ (Act.run_gets _ g)]
  by_cases hsame : g.handle.numbering = n
  · rw [Handle.setNumbering, if_pos hsame] at hset
    rw [if_pos hsame]
    exact ⟨rfl, hset⟩
  · rw [if_neg hsame]
    exact ⟨rfl, hset⟩

variable [Backend β]

/-- What a call on the handle answers, the bookmark answers too as far as it knows, and the cursor
is at the bookmark again. -/
theorem At.handleCall {g : Gpio β} (hm : m.At g.handle) (call : HandleCall) :
    (∀ a, (m.perform call).1 = some a → (call.perform.run g).1 = .ok a) ∧
      (m.perform call).2.At (call.perform.run g).2.handle := by
  have hborne : Gpio.Borne (Gpio.Has m.At : Gpio β → Prop) :=
    Gpio.borne_of_unrecorded m.unrecorded_at
  cases call with
  | numbering => exact ⟨fun _ ha => by cases ha; rw [← hm.numbering]; rfl, hm⟩
  | setNumbering n =>
    obtain ⟨hdone, hset⟩ := hm.setNumberingCall n
    rw [HandleCall.perform, run_quiet, hdone]
    exact ⟨fun _ ha => by cases ha; rfl, hset⟩
  | pins => exact ⟨fun _ ha => by cases ha; rw [← hm.order]; rfl, hm⟩
  | toFront => exact ⟨fun _ ha => by cases ha; rfl, hm.toFront⟩
  | toBack => exact ⟨fun _ ha => by cases ha; rfl, hm.toBack⟩
  | hasNext => exact ⟨fun _ ha => by cases ha; rw [← hm.place, ← Handle.hasNext_eq]; rfl, hm⟩
  | hasPrevious =>
    refine ⟨fun _ ha => ?_, hm⟩
    cases ha
    rw [← hm.place, ← Handle.hasPrevious_eq hm.within]
    rfl
  | next =>
    obtain ⟨hpin, hat⟩ := hm.next
    exact ⟨fun _ ha => by cases ha; rw [← hpin]; rfl, hat⟩
  | previous =>
    obtain ⟨hpin, hat⟩ := hm.previous
    exact ⟨fun _ ha => by cases ha; rw [← hpin]; rfl, hat⟩
  | setReleaseOnClose enabled =>
    exact ⟨nofun, hm.table, hm.covered, hm.numbering, hm.order, hm.within, hm.place⟩
  | mcuPin pin =>
    have hkeeps : (Gpio.mcuPin pin : Act (Gpio β) Nat).Keeps (Gpio.Has m.At) :=
      (Gpio.leaves_mcuPin pin).keeps
    exact ⟨nofun, hkeeps.map _ g hm⟩
  | readAll pins => exact ⟨nofun, (hborne.readAll pins).map _ g hm⟩
  | writeAll pins high => exact ⟨nofun, keeps_quiet (hborne.writeAll pins high) g hm⟩
  | toggleAll pins => exact ⟨nofun, keeps_quiet (hborne.toggleAll pins) g hm⟩
  | isValid pin => exact ⟨nofun, hm⟩
  | releaseOnClose => exact ⟨nofun, hm⟩
  | backendName => exact ⟨nofun, hm⟩
  | tableName => exact ⟨nofun, hm⟩

/-- A handle that was just made has its cursor before the first pin. -/
theorem at_create {settings : HandleSettings} {count : Nat}
    (hfit : ∀ max, t.maxMcu? = some max → max < count) :
    (front t settings.numbering).At (Handle.create t settings count) where
  table := rfl
  covered mcu hmcu := by
    obtain ⟨max, hmax⟩ := Option.isSome_iff_exists.mp (List.isSome_max?_of_mem hmcu)
    have hle := (List.max?_eq_some_iff.mp hmax).2 mcu hmcu
    exact (Nat.lt_of_le_of_lt hle (hfit max hmax)).trans_eq Array.size_replicate.symm
  numbering := rfl
  order := rfl
  within := Nat.zero_le _
  place := rfl

end Bookmark

end BoardGpio
