import BoardGpio.Json.Shape
import BoardGpio.Proofs.Json.Token

/-!
# Written values are read back

A reader `Reads` a document as a value when it takes the value from the document's written form, at
every level of indentation, after any blanks and before anything that the document does not run
into. Single values are read back if their text is (`reads_natural`, `reads_string`), and a record
is read back if each of its fields is: the written fields fill the draft one after the other
(`Fills`), and the finished draft is the value (`reads_record`).
-/

set_option autoImplicit false

namespace BoardGpio.Json

variable {α β ρ : Type}

namespace Reader

/-- After a success the second reader goes on with the rest of the text. -/
theorem run_bind_ok {x : Reader α} {cs rest : List Char} {a : α} (f : α → Reader β)
    (h : x.run cs = .ok (a, rest)) : (x >>= f).run cs = (f a).run rest := by
  rw [StateT.run_bind, h]
  rfl

/-- The same after a scan. -/
theorem run_bind_scan {scan : List Char → Scan α} {cs rest : List Char} {a : α} (f : α → Reader β)
    (h : scan cs = .ok (a, rest)) : (bind (m := Reader) scan f).run cs = (f a).run rest :=
  run_bind_ok f h

theorem run_peek {blanks : List Char} (hblanks : ∀ c ∈ blanks, isSpace c = true) {c : Char}
    (hc : isSpace c = false) (rest : List Char) :
    peek?.run (blanks ++ c :: rest) = .ok (some c, c :: rest) := by
  show Except.ok _ = _
  rw [skipSpace_append hblanks, skipSpace_cons hc]
  rfl

theorem run_drop (c : Char) (rest : List Char) : drop.run (c :: rest) = .ok ((), rest) := rfl

theorem run_skip {step : List Char → Except Problem (List Char)} {cs rest : List Char}
    (h : step cs = .ok rest) : (skip step).run cs = .ok ((), rest) := by
  show (step cs).map _ = _
  rw [h]
  rfl

theorem run_expect {c : Char} (hc : isSpace c = false) (rest : List Char) :
    (expect c).run (c :: rest) = .ok ((), rest) := by
  have hnone : ∀ d ∈ ([] : List Char), isSpace d = true := by simp
  have hpeek := run_peek hnone hc rest
  rw [List.nil_append] at hpeek
  rw [expect, run_bind_ok _ hpeek, if_pos rfl]
  rfl

/-- A word that stands for a value. -/
theorem run_word (c : Char) (word rest : List Char) (a : α) :
    (drop >>= fun _ => skip (literal word) >>= fun _ => (pure a : Reader α)).run
      (c :: (word ++ rest)) = .ok (a, rest) := by
  rw [run_bind_ok _ (run_drop _ _), run_bind_ok _ (run_skip (literal_append _ _))]
  rfl

end Reader

open Reader

/-- Takes a value from the written form of a document, and leaves what follows it. -/
def Reads (r : Reader α) (doc : Doc) (a : α) : Prop :=
  ∀ (level : Nat) (blanks rest : List Char), (∀ c ∈ blanks, isSpace c = true) → Ends rest →
    r.run (blanks ++ (pretty level doc ++ rest)) = .ok (a, rest)

theorem Reads.map {r : Reader α} {doc : Doc} {a : α} (h : Reads r doc a) (f : α → β) :
    Reads (f <$> r) doc (f a) := by
  intro level blanks rest hblanks hrest
  rw [StateT.run_map, h level blanks rest hblanks hrest]
  rfl

/-! ## Single values -/

theorem isSpace_of_isDigit {c : Char} (hc : c.isDigit = true) : isSpace c = false := by
  cases hspace : isSpace c with
  | false => rfl
  | true =>
    simp only [isSpace, Bool.or_eq_true, beq_iff_eq] at hspace
    rcases hspace with ((rfl | rfl) | rfl) | rfl <;> cases hc

theorem reads_natural {n bound : Nat} (hn : n < bound) (hbound : bound ≤ UInt64.size)
    (expected : String) : Reads (natural bound expected) (.number n) n := by
  intro level blanks rest hblanks hrest
  have hmax : n ≤ significandMax := by
    unfold significandMax
    omega
  have hnumber := number_written hmax hrest
  obtain ⟨d, more, hdigits, hd, -⟩ := head_toDigits n
  have hminus : d ≠ '-' := by
    rintro rfl
    cases hd
  rw [hdigits, List.cons_append] at hnumber
  rw [pretty, hdigits, List.cons_append, natural,
    run_bind_ok _ (run_peek hblanks (isSpace_of_isDigit hd) _)]
  split
  · rename_i heq
    cases heq
    exact absurd rfl hminus
  · rename_i c _ heq
    cases heq
    rw [if_pos hd]
    rw [run_bind_scan _ hnumber]
    simp only
    rw [if_pos hn]
    rfl
  · rename_i heq
    cases heq

theorem reads_plainNatural {n bound : Nat} (hn : n < bound) :
    Reads (plainNatural bound) (.number n) n := by
  intro level blanks rest hblanks hrest
  obtain ⟨d, more, hdigits, hd, -⟩ := head_toDigits n
  have hwhole := wholeDigits_written n hrest
  have hvalue : (Nat.toDigits 10 n).foldl (fun acc d => 10 * acc + digitValue d) 0 = n :=
    Nat.ofDigitChars_ten_toDigits
  rw [hdigits, List.cons_append] at hwhole
  rw [hdigits] at hvalue
  rw [pretty, hdigits, List.cons_append, plainNatural,
    run_bind_ok _ (run_peek hblanks (isSpace_of_isDigit hd) _)]
  simp only
  rw [run_bind_scan _ hwhole, hvalue, if_pos hn]
  rfl

theorem reads_flag (b : Bool) : Reads flag (.boolean b) b := by
  intro level blanks rest hblanks hrest
  cases b with
  | true =>
    rw [show pretty level (.boolean true) = 't' :: ['r', 'u', 'e'] from rfl, List.cons_append, flag,
      run_bind_ok _ (run_peek hblanks (by decide) _)]
    exact run_word 't' ['r', 'u', 'e'] rest true
  | false =>
    rw [show pretty level (.boolean false) = 'f' :: ['a', 'l', 's', 'e'] from rfl,
      List.cons_append, flag, run_bind_ok _ (run_peek hblanks (by decide) _)]
    exact run_word 'f' ['a', 'l', 's', 'e'] rest false

/-- A string is read back after its opening quote. -/
theorem text_written (s : String) (rest : List Char) :
    text (s.toList.flatMap escapeChar ++ ['"'] ++ rest) = .ok (s.toList, rest) := by
  rw [List.append_assoc]
  exact text_escape s.toList rest

theorem reads_string (s expected : String) : Reads (string expected) (.text s) s := by
  intro level blanks rest hblanks hrest
  rw [pretty, escape, List.cons_append, string, run_bind_ok _ (run_peek hblanks (by decide) _)]
  simp only
  rw [run_bind_ok _ (run_drop _ _), run_bind_scan _ (text_written s rest), String.ofList_toList]
  rfl

/-- A value is read back from its name if it is the first with that name. -/
theorem reads_choice {options : List α} {name : α → String} {a : α}
    (hfirst : options.find? (fun o => name o == name a) = some a) :
    Reads (Shape.readChoice options name) (.text (name a)) a := by
  intro level blanks rest hblanks hrest
  rw [pretty, escape, List.cons_append, Shape.readChoice,
    run_bind_ok _ (run_peek hblanks (by decide) _)]
  simp only [Shape.readNamed]
  rw [run_bind_ok _ (run_drop _ _), run_bind_scan _ (text_written _ rest), String.ofList_toList,
    Shape.named, hfirst]
  rfl

theorem reads_none (value : Reader α) : Reads (Reader.optional value) .null none := by
  intro level blanks rest hblanks hrest
  rw [show pretty level .null = 'n' :: ['u', 'l', 'l'] from rfl, List.cons_append, Reader.optional,
    run_bind_ok _ (run_peek hblanks (by decide) _)]
  exact run_word 'n' ['u', 'l', 'l'] rest none

/-- Only `null` starts as `null` does. -/
theorem head_pretty {doc : Doc} (hdoc : doc ≠ .null) (level : Nat) :
    ∃ c more, pretty level doc = c :: more ∧ isSpace c = false ∧ c ≠ 'n' := by
  cases doc with
  | null => exact absurd rfl hdoc
  | boolean b => cases b <;> exact ⟨_, _, rfl, by decide, by decide⟩
  | number n =>
    obtain ⟨d, more, hdigits, hd, -⟩ := head_toDigits n
    refine ⟨d, more, hdigits, isSpace_of_isDigit hd, ?_⟩
    rintro rfl
    cases hd
  | text s => exact ⟨_, _, rfl, by decide, by decide⟩
  | record docs => cases docs <;> exact ⟨_, _, rfl, by decide, by decide⟩

/-- A document other than `null` is read as the value that is there. -/
theorem Reads.some {value : Reader α} {doc : Doc} {a : α} (h : Reads value doc a)
    (hdoc : doc ≠ .null) : Reads (Reader.optional value) doc (some a) := by
  intro level blanks rest hblanks hrest
  obtain ⟨c, more, hpretty, hspace, hc⟩ := head_pretty hdoc level
  have hvalue := h level [] rest (by simp) hrest
  rw [hpretty, List.cons_append, List.nil_append] at hvalue
  rw [hpretty, List.cons_append, Reader.optional, run_bind_ok _ (run_peek hblanks hspace _)]
  split
  · rename_i heq
    cases heq
    exact absurd rfl hc
  · rw [run_bind_ok _ hvalue]
    rfl

/-! ## Records -/

/-- Written fields, in the order of the record's, that a draft is filled with one after the other.
-/
inductive Fills : List (FieldShape ρ) → List (String × Doc) → ρ → ρ → Prop where
  | done (draft : ρ) : Fills [] [] draft draft
  | field {f : FieldShape ρ} {fs : List (FieldShape ρ)} {doc : Doc} {docs : List (String × Doc)}
      {draft full : ρ} {set : ρ → ρ} (hnew : f.isSet draft = false)
      (hread : Reads f.shape.read doc set) (hrest : Fills fs docs (set draft) full) :
      Fills (f :: fs) ((f.name, doc) :: docs) draft full

/-- A field is found by its name if no two fields have one name. -/
theorem named?_of_mem {fields : List (FieldShape ρ)}
    (hnames : (fields.map FieldShape.name).Nodup) {f : FieldShape ρ} (hf : f ∈ fields) :
    FieldShape.named? fields f.name = some f := by
  induction fields with
  | nil => cases hf
  | cons g fields ih =>
    rw [List.map_cons, List.nodup_cons] at hnames
    rw [FieldShape.named?, List.find?_cons]
    rcases List.mem_cons.mp hf with rfl | hf
    · simp
    · have hne : g.name ≠ f.name := by
        intro heq
        apply hnames.1
        rw [heq]
        exact List.mem_map_of_mem hf
      simp only [beq_eq_false_iff_ne.mpr hne]
      exact ih hnames.2 hf

theorem isSpace_newline (level : Nat) : ∀ c ∈ newline level, isSpace c = true := by
  intro c hc
  rw [newline, List.mem_cons, List.mem_replicate] at hc
  rcases hc with rfl | ⟨-, rfl⟩ <;> decide

/-- The rest of a written record goes on with a line break or a comma. -/
theorem ends_prettyFields (level : Nat) (docs : List (String × Doc)) (rest : List Char) :
    Ends (prettyFields level false docs ++ rest) := by
  cases docs with
  | nil => exact ends_cons _ (by decide)
  | cons field docs => exact ends_cons _ (by decide)

theorem length_prettyFields (level : Nat) (first : Bool) (docs : List (String × Doc)) :
    docs.length ≤ (prettyFields level first docs).length := by
  induction docs generalizing first with
  | nil => simp
  | cons field docs ih =>
    obtain ⟨name, doc⟩ := field
    have hrest := ih false
    simp only [prettyFields, List.length_cons, List.length_append]
    omega

/-- The next key of a written record is found, after its comma and its line break. -/
theorem run_nextKey (level : Nat) (first : Bool) (rest : List Char) :
    (nextKey first).run ((if first then [] else [',']) ++ newline level ++ '"' :: rest) =
      .ok (true, '"' :: rest) := by
  have hblanks := isSpace_newline level
  cases first with
  | true =>
    simp only [if_true, List.nil_append]
    rw [nextKey, run_bind_ok _ (run_peek hblanks (by decide) _)]
    rfl
  | false =>
    simp only [Bool.false_eq_true, if_false, List.cons_append, List.nil_append]
    have hcomma : peek?.run (',' :: (newline level ++ '"' :: rest)) =
        .ok (some ',', ',' :: (newline level ++ '"' :: rest)) := rfl
    rw [nextKey, run_bind_ok _ hcomma]
    simp only [Bool.false_eq_true, if_false]
    rw [run_bind_ok _ (run_drop _ _), run_bind_ok _ (run_peek hblanks (by decide) _)]
    rfl

/-- The members of a written record fill the draft. -/
theorem Fills.run_members {fields fs : List (FieldShape ρ)} {docs : List (String × Doc)}
    {draft full : ρ} (h : Fills fs docs draft full)
    (hnames : (fields.map FieldShape.name).Nodup) (hfields : ∀ f ∈ fs, f ∈ fields) (level : Nat)
    (first : Bool) {fuel : Nat} (hfuel : docs.length < fuel) (rest : List Char) :
    (FieldShape.readMembers fields fuel first draft).run (prettyFields level first docs ++ rest) =
      .ok (full, '\x7d' :: rest) := by
  induction h generalizing first fuel with
  | done draft =>
    obtain ⟨fuel, rfl⟩ : ∃ n, fuel = n + 1 := ⟨fuel - 1, by simp at hfuel; omega⟩
    have hclosed : (nextKey first).run (newline level ++ '\x7d' :: rest) =
        .ok (false, '\x7d' :: rest) := by
      rw [nextKey, run_bind_ok _ (run_peek (isSpace_newline level) (by decide) _)]
      rfl
    rw [prettyFields, List.append_assoc, List.singleton_append, FieldShape.readMembers,
      run_bind_ok _ hclosed]
    rfl
  | @field f fs doc docs draft full set hnew hread _ ih =>
    rw [List.length_cons] at hfuel
    obtain ⟨fuel, rfl⟩ : ∃ n, fuel = n + 1 := ⟨fuel - 1, by omega⟩
    have hnamed := named?_of_mem hnames (hfields f List.mem_cons_self)
    have hblank : ∀ c ∈ [' '], isSpace c = true := by
      intro c hc
      rw [List.mem_singleton.mp hc]
      rfl
    have hvalue := hread (level + 1) [' '] (prettyFields level false docs ++ rest) hblank
      (ends_prettyFields level docs rest)
    have hfuel' : docs.length < fuel := by omega
    have hrest := ih (fun g hg => hfields g (List.mem_cons_of_mem _ hg)) false hfuel'
    have hcolon : (expect ':').run (':' :: ([' '] ++ (pretty (level + 1) doc ++
        (prettyFields level false docs ++ rest)))) = .ok ((), _) := run_expect (by decide) _
    have hsplit : prettyFields level first ((f.name, doc) :: docs) ++ rest =
        (if first then [] else [',']) ++ newline (level + 1) ++
          '"' :: (f.name.toList.flatMap escapeChar ++ ['"'] ++
            ':' :: ([' '] ++ (pretty (level + 1) doc ++
              (prettyFields level false docs ++ rest)))) := by
      simp [prettyFields, escape]
    rw [hsplit, FieldShape.readMembers, run_bind_ok _ (run_nextKey _ _ _), if_pos rfl,
      run_bind_ok _ (run_drop _ _), run_bind_scan _ (text_written f.name _), String.ofList_toList,
      hnamed]
    simp only
    rw [hnew, if_neg (by simp), run_bind_ok _ hcolon, run_bind_ok _ hvalue, hrest]

/-- A record without fields stands as a pair of braces. -/
theorem reads_no_members {fields : List (FieldShape ρ)} {draft : ρ} (fuel : Nat)
    (rest : List Char) :
    (FieldShape.readMembers fields (fuel + 1) true draft).run ('\x7d' :: rest) =
      .ok (draft, '\x7d' :: rest) := by
  have hclosed : (nextKey true).run ('\x7d' :: rest) = .ok (false, '\x7d' :: rest) := rfl
  rw [FieldShape.readMembers, run_bind_ok _ hclosed]
  rfl

/-- A record is read back if its written fields fill a draft that finishes as the record. -/
theorem reads_record {name : String} {fields : List (FieldShape ρ)} {empty full : ρ}
    {finish : ρ → Except Mismatch α} {docs : List (String × Doc)} {a : α}
    (hnames : (fields.map FieldShape.name).Nodup) (h : Fills fields docs empty full)
    (hfinish : finish full = .ok a) :
    Reads (Shape.readRecord name fields empty finish) (.record docs) a := by
  intro level blanks rest hblanks hrest
  have hclosed : (expect '\x7d').run ('\x7d' :: rest) = .ok ((), rest) :=
    run_expect (by decide) rest
  obtain ⟨inner, hpretty, hmembers⟩ : ∃ inner, pretty level (.record docs) = '\x7b' :: inner ∧
      (FieldShape.readMembers fields ((inner ++ rest).length + 1) true empty).run (inner ++ rest) =
        .ok (full, '\x7d' :: rest) := by
    cases docs with
    | nil =>
      cases h
      exact ⟨['\x7d'], rfl, reads_no_members _ rest⟩
    | cons field docs =>
      have hlength := length_prettyFields level true (field :: docs)
      have hfuel : (field :: docs).length <
          (prettyFields level true (field :: docs) ++ rest).length + 1 := by
        rw [List.length_append]
        omega
      exact ⟨_, rfl, h.run_members hnames (fun f hf => hf) level true hfuel rest⟩
  rw [hpretty, List.cons_append, Shape.readRecord, run_bind_ok _ (run_peek hblanks (by decide) _)]
  simp only
  rw [run_bind_ok _ (run_drop _ _), run_bind_ok _ (StateT.run_get _), run_bind_ok _ hmembers,
    run_bind_ok _ hclosed, pure_bind, hfinish]
  rfl

/-- What is read from the form of a value is read from that form as a text of its own. -/
theorem Reads.document {r : Reader α} {doc : Doc} {a : α} (h : Reads r doc a) :
    r.document (pretty 0 doc) = .ok a := by
  have hrun := h 0 [] [] (by simp) ends_nil
  rw [List.nil_append, List.append_nil] at hrun
  rw [Reader.document, hrun]
  rfl

end BoardGpio.Json
