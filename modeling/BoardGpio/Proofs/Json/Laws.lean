import BoardGpio.Json.Format
import BoardGpio.Proofs.Json.Written
import BoardGpio.Proofs.Json.Yield

/-!
# Laws of a library of documents

What can be relied on whichever library reads and writes: a document that stands for a value by its
format is read as that value from the text that was written for it (`Library.ReadsWritten`), and
whatever is read, from any text, is a value that the format can give (`Library.GivesDescribed`).
Both are stated by recursion over the format: what a document stands for is `Format.Denotes`, and
what can be given is `Format.Gives`. The library that reads from left to right keeps both
(`readsWritten_stream`, `givesDescribed_stream`).
-/

set_option autoImplicit false

namespace BoardGpio.Json

variable {α β ρ τ : Type}

/-- The names of the fields. -/
def Fields.names : {ρ : Type} → Fields ρ → List String
  | _, .nil => []
  | _, .field name _ _ _ _ rest => name :: rest.names

mutual

/-- The document stands for the value. -/
def Format.Denotes : {α : Type} → Format α → Doc → α → Prop
  | _, .natural width, doc, n => doc = .number n ∧ n < width.bound
  | _, .flag, doc, b => doc = .boolean b
  | _, .string _, doc, s => doc = .text s
  | _, .choice options name, doc, a =>
    doc = .text (name a) ∧ options.find? (fun o => name o == name a) = some a
  | _, .optional _, doc, none => doc = .null
  | _, .optional value, doc, some a => value.Denotes doc a ∧ doc ≠ .null
  | _, .map f value, doc, b => ∃ a, value.Denotes doc a ∧ f a = b
  | _, .record _ fields empty finish, doc, a => ∃ docs full, doc = .record docs ∧
    fields.names.Nodup ∧ fields.Fill docs empty full ∧ finish full = .ok a

/-- Documents of all fields, in their order, fill the draft one after the other. -/
def Fields.Fill : {ρ : Type} → Fields ρ → List (String × Doc) → ρ → ρ → Prop
  | _, .nil, docs, draft, full => docs = [] ∧ draft = full
  | _, .field name get set value _ rest, docs, draft, full => ∃ doc more v,
    docs = (name, doc) :: more ∧ get draft = none ∧ value.Denotes doc v ∧
      rest.Fill more (set v draft) full

end

mutual

/-- The value is one that can be read. -/
def Format.Gives : {α : Type} → Format α → α → Prop
  | _, .natural width, n => n < width.bound
  | _, .flag, _ => True
  | _, .string _, _ => True
  | _, .choice options _, a => a ∈ options
  | _, .optional value, o => ∀ a ∈ o, value.Gives a
  | _, .map f value, b => ∃ a, value.Gives a ∧ f a = b
  | _, .record _ fields empty finish, a => ∃ steps : List (_ → _),
    (∀ step ∈ steps, fields.Sets step) ∧
      finish (steps.foldl (fun draft step => step draft) empty) = .ok a

/-- What a value of one of the fields does to the draft. -/
def Fields.Sets : {ρ : Type} → Fields ρ → (ρ → ρ) → Prop
  | _, .nil, _ => False
  | _, .field _ _ set value _ rest, step => (∃ v, value.Gives v ∧ set v = step) ∨ rest.Sets step

end

namespace Library

/-- What was written for a value is read as the value. -/
def ReadsWritten (lib : Library) : Prop :=
  ∀ {α : Type} (format : Format α) (doc : Doc) (a : α), format.Denotes doc a →
    lib.read format (lib.write doc) = .ok a

/-- Whatever the text, only values that the format describes are read. -/
def GivesDescribed (lib : Library) : Prop :=
  ∀ {α : Type} (format : Format α) (t : String) (a : α), lib.read format t = .ok a →
    format.Gives a

end Library

/-! ## Filling records, and taking them apart -/

theorem Fields.fill_nil (draft : ρ) : (Fields.nil : Fields ρ).Fill [] draft draft :=
  ⟨rfl, rfl⟩

theorem Fields.fill_field {name : String} {get : ρ → Option τ} {set : τ → ρ → ρ} {value : Format τ}
    {hasDefault : Bool} {rest : Fields ρ} {doc : Doc} {docs : List (String × Doc)} {v : τ}
    {draft full : ρ} (hnew : get draft = none) (hvalue : value.Denotes doc v)
    (hrest : rest.Fill docs (set v draft) full) :
    (Fields.field name get set value hasDefault rest).Fill ((name, doc) :: docs) draft full :=
  ⟨doc, docs, v, rfl, hnew, hvalue, hrest⟩

/-- What all fields keep true of the draft is true of the draft that is finished. -/
theorem Format.Gives.draft {name : String} {fields : Fields ρ} {empty : ρ}
    {finish : ρ → Except Mismatch α} {a : α} (h : (Format.record name fields empty finish).Gives a)
    {I : ρ → Prop} (hempty : I empty)
    (hfields : ∀ step, fields.Sets step → ∀ draft, I draft → I (step draft)) :
    ∃ draft, I draft ∧ finish draft = .ok a := by
  obtain ⟨steps, hsteps, hfinish⟩ := h
  refine ⟨_, ?_, hfinish⟩
  clear hfinish
  induction steps generalizing empty with
  | nil => exact hempty
  | cons step steps ih =>
    have hstep := hfields step (hsteps step List.mem_cons_self) empty hempty
    exact ih hstep fun s hs => hsteps s (List.mem_cons_of_mem _ hs)

/-! ## The library that reads from left to right -/

theorem Width.reads {width : Width} {n : Nat} (hn : n < width.bound) :
    Reads width.shape.read (.number n) n := by
  cases width with
  | bits32 => exact reads_natural hn (by decide) _
  | bits64 => exact reads_natural hn (Nat.le_refl _) _
  | bits128 => exact reads_plainNatural hn

theorem Width.yields (width : Width) : Yields width.shape.read fun n => n < width.bound := by
  cases width with
  | bits32 => exact yields_natural _ _
  | bits64 => exact yields_natural _ _
  | bits128 => exact yields_plainNatural _

theorem Fields.map_name_shapes : ∀ {ρ : Type} (fields : Fields ρ),
    fields.shapes.map FieldShape.name = fields.names
  | _, .nil => rfl
  | _, .field name _ _ _ _ rest => congrArg (name :: ·) rest.map_name_shapes

mutual

/-- What a document stands for is read from its written form. -/
theorem Format.reads : ∀ {α : Type} (format : Format α) {doc : Doc} {a : α},
    format.Denotes doc a → Reads format.shape.read doc a
  | _, .natural _, _, _, h => by
    obtain ⟨rfl, ha⟩ := h
    exact Width.reads ha
  | _, .flag, _, b, h => by
    cases h
    exact reads_flag b
  | _, .string expected, _, s, h => by
    cases h
    exact reads_string s expected
  | _, .choice _ _, _, _, h => by
    obtain ⟨rfl, hfirst⟩ := h
    exact reads_choice hfirst
  | _, .optional value, _, none, h => by
    cases h
    exact reads_none value.shape.read
  | _, .optional value, _, some _, h => (value.reads h.1).some h.2
  | _, .map f value, _, _, h => by
    obtain ⟨v, hv, rfl⟩ := h
    exact (value.reads hv).map f
  | _, .record _ fields _ _, _, _, h => by
    obtain ⟨docs, full, rfl, hnames, hfill, hfinish⟩ := h
    rw [← fields.map_name_shapes] at hnames
    exact reads_record hnames (fields.fills hfill) hfinish

theorem Fields.fills : ∀ {ρ : Type} (fields : Fields ρ) {docs : List (String × Doc)}
    {draft full : ρ}, fields.Fill docs draft full → Fills fields.shapes docs draft full
  | _, .nil, _, draft, _, h => by
    obtain ⟨rfl, rfl⟩ := h
    exact .done draft
  | _, .field _ get set value _ rest, _, draft, _, h => by
    obtain ⟨doc, more, v, rfl, hnew, hvalue, hrest⟩ := h
    have hset : (get draft).isSome = false := by rw [hnew, Option.isSome_none]
    exact .field hset ((value.reads hvalue).map set) (rest.fills hrest)

end

/-- A draft that was made of an empty one by the fields. -/
def Fields.Made (fields : Fields ρ) (empty draft : ρ) : Prop :=
  ∃ steps : List (ρ → ρ), (∀ step ∈ steps, fields.Sets step) ∧
    steps.foldl (fun draft step => step draft) empty = draft

theorem Fields.Made.step {fields : Fields ρ} {empty draft : ρ} (h : fields.Made empty draft)
    {step : ρ → ρ} (hstep : fields.Sets step) : fields.Made empty (step draft) := by
  obtain ⟨steps, hsteps, rfl⟩ := h
  refine ⟨steps ++ [step], fun s hs => ?_, by simp⟩
  rcases List.mem_append.mp hs with hs | hs
  · exact hsteps s hs
  · rw [List.mem_singleton.mp hs]
    exact hstep

mutual

/-- What is read is a value that the format describes. -/
theorem Format.yields : ∀ {α : Type} (format : Format α), Yields format.shape.read format.Gives
  | _, .natural width => width.yields
  | _, .flag => yields_true _
  | _, .string _ => yields_true _
  | _, .choice options name => yields_choice options name
  | _, .optional value => yields_optional value.yields
  | _, .map _ value => value.yields.map fun v hv => ⟨v, hv, rfl⟩
  | _, .record _ fields empty _ =>
    yields_record (I := fields.Made empty) ⟨[], by simp, rfl⟩
      (fun f hf cs _ rest hread _ hdraft => hdraft.step (fields.yields f hf cs _ rest hread))
      (fun _ _ ⟨steps, hsteps, hmade⟩ hfinish => ⟨steps, hsteps, hmade ▸ hfinish⟩)

theorem Fields.yields : ∀ {ρ : Type} (fields : Fields ρ),
    ∀ f ∈ fields.shapes, Yields f.shape.read fields.Sets
  | _, .nil, _, hf => nomatch hf
  | _, .field _ _ _ value _ rest, f, hf => by
    rcases List.mem_cons.mp hf with rfl | hf
    · exact value.yields.map fun v hv => .inl ⟨v, hv, rfl⟩
    · exact fun cs step more hread => .inr (rest.yields f hf cs step more hread)

end

namespace Library

theorem readsWritten_stream : stream.ReadsWritten := by
  intro α format doc a h
  show format.shape.read.document (String.ofList (pretty 0 doc)).toList = _
  rw [String.toList_ofList]
  exact (format.reads h).document

theorem givesDescribed_stream : stream.GivesDescribed := by
  intro α format t a h
  exact format.yields.document h

end Library

end BoardGpio.Json
