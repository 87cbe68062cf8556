import FreightPromotion.Output

/-!
# What is shown of a list of promotions

`rendering` describes the whole output for a list at once, while a printer writes
it object by object and part by part.  `show_fresh` proves the two equal for a
sink that takes everything: a presentation that has not shown anything yet leaves
exactly the rendering in the sink, and it does not fail.

Only the printer of block style has a state, which decides whether a separator
comes first.  `Printer.stream` follows that state along the list, and
`stream_yaml_succ` says that after the first object it no longer matters.

The names of formats are listed where options are checked, and looked for once more
where a printer is made.  Both know the names of `Format` and no others
(`isSupportedFormat_iff`, `Printer.ofLabel_eq_ok_iff`).
-/

namespace FreightPromotion

open FreightPromotion.Text (Bytes)

/-! ## Formats -/

/-- A format for objects. -/
inductive Format where
  | json
  | yaml
  | name
deriving DecidableEq, Repr

/-- The name by which a format is asked for. -/
def Format.label : Format → String
  | .json => "json"
  | .yaml => "yaml"
  | .name => "name"

/-- The format with the given name. -/
def Format.ofLabel? (label : String) : Option Format :=
  [.json, .yaml, .name].find? fun format : Format => format.label = label

/-- A printer for a format that has not printed anything. -/
def Printer.ofFormat : Format → Printer
  | .json => .json
  | .yaml => .yaml 0
  | .name => .name

theorem Format.ofLabel?_label (format : Format) : Format.ofLabel? format.label = some format := by
  cases format <;> rfl

/-- The names that are accepted are those of the formats. -/
theorem isSupportedFormat_iff {label : String} :
    isSupportedFormat label = true ↔ ∃ format : Format, label = format.label := by
  rw [isSupportedFormat, List.contains_iff_mem]
  constructor
  · intro hmem
    simp only [supportedFormats, List.mem_cons, List.not_mem_nil, or_false] at hmem
    rcases hmem with rfl | rfl | rfl
    · exact ⟨.json, rfl⟩
    · exact ⟨.yaml, rfl⟩
    · exact ⟨.name, rfl⟩
  · rintro ⟨format, rfl⟩
    cases format <;> decide

/-- A printer is found for the names of the formats, and for no others. -/
theorem Printer.ofLabel_eq_ok_iff {label : String} {printer : Printer} :
    Printer.ofLabel label = .ok printer ↔
      ∃ format : Format, label = format.label ∧ printer = .ofFormat format := by
  constructor
  · intro hprinter
    unfold Printer.ofLabel at hprinter
    split at hprinter
    · exact ⟨.json, rfl, (Except.ok.inj hprinter).symm⟩
    · exact ⟨.yaml, rfl, (Except.ok.inj hprinter).symm⟩
    · exact ⟨.name, rfl, (Except.ok.inj hprinter).symm⟩
    · contradiction
  · rintro ⟨format, rfl, rfl⟩
    cases format <;> rfl

/-! ## The rendering -/

/-- The line that separates documents in block style. -/
def separatorLine : Bytes :=
  Text.encode "---\n"

/-- A promotion as a document in block style. -/
def Promotion.blockDocument (promotion : Promotion) : Bytes :=
  Text.encode (Yaml.document promotion.resource.document)

/-- The output for a list of promotions, in a format or in summary lines.  Documents
in block style are separated from the second one on. -/
def rendering : Option Format → List Promotion → Bytes
  | none, promotions => promotions.flatMap fun promotion => Text.encode promotion.summary
  | some .json, promotions =>
    promotions.flatMap fun promotion =>
      Text.encode (promotion.resource.document.pretty ++ "\n")
  | some .name, promotions =>
    promotions.flatMap fun promotion => Text.encode promotion.resource.nameLine
  | some .yaml, [] => []
  | some .yaml, promotion :: promotions =>
    promotion.blockDocument ++
      promotions.flatMap fun promotion => separatorLine ++ promotion.blockDocument

/-- The presentation in a format in which nothing has been shown yet. -/
def Presentation.fresh : Option Format → Presentation
  | none => .summary
  | some format => .printed (.ofFormat format)

@[simp]
theorem rendering_nil (format : Option Format) : rendering format [] = [] := by
  rcases format with _ | (_ | _ | _) <;> rfl

theorem Text.encode_join (texts : List String) :
    Text.encode (String.join texts) = texts.flatMap Text.encode := by
  induction texts with
  | nil => rfl
  | cons text texts ih => rw [String.join_cons, Text.encode_append, ih, List.flatMap_cons]

/-! ## Nothing is shown of nothing else

Every object takes at least one byte in every format, so that a list is lost from
the output only if it is empty. -/

theorem Text.encode_eq_nil_iff {text : String} : Text.encode text = [] ↔ text = "" := by
  constructor
  · intro h
    -- A text is recovered from its bytes, so that only the empty one has none.
    have hdecode := Text.decode?_encode text
    rw [h, ← Text.encode_empty, Text.decode?_encode] at hdecode
    exact (Option.some.inj hdecode).symm
  · rintro rfl
    exact Text.encode_empty

theorem Text.encode_append_ne_nil {first second : String} (hsecond : second ≠ "") :
    Text.encode (first ++ second) ≠ [] := by
  rw [Text.encode_append]
  exact List.append_ne_nil_of_right_ne_nil _ (mt Text.encode_eq_nil_iff.mp hsecond)

theorem Promotion.blockDocument_ne_nil (promotion : Promotion) :
    promotion.blockDocument ≠ [] := by
  have hkey : ∀ key, Yaml.writeKey 0 key ≠ [] := by
    intro key
    unfold Yaml.writeKey
    split <;> simp
  refine mt Text.encode_eq_nil_iff.mp ?_
  simp [Promotion.resource, Resource.document, Yaml.document, Yaml.writeMoreMembers, hkey]

/-- Only the empty list leaves no output. -/
theorem rendering_eq_nil_iff {format : Option Format} {promotions : List Promotion} :
    rendering format promotions = [] ↔ promotions = [] := by
  constructor
  · intro h
    cases promotions with
    | nil => rfl
    | cons promotion promotions =>
        -- Each form starts with the document or line of the first promotion.
        exfalso
        rcases format with _ | (_ | _ | _)
        · rw [rendering, List.flatMap_cons] at h
          exact Text.encode_append_ne_nil (by decide) (List.append_eq_nil_iff.mp h).1
        · rw [rendering, List.flatMap_cons] at h
          exact Text.encode_append_ne_nil (by decide) (List.append_eq_nil_iff.mp h).1
        · rw [rendering] at h
          exact promotion.blockDocument_ne_nil (List.append_eq_nil_iff.mp h).1
        · rw [rendering, List.flatMap_cons] at h
          exact Text.encode_append_ne_nil (by decide) (List.append_eq_nil_iff.mp h).1
  · rintro rfl
    exact rendering_nil format

/-! ## Sinks that take everything

A sink without a limit is one that has only been given what it holds. -/

theorem Sink.write_unlimited (written content : Bytes) :
    Sink.write { written := written } content = ({ written := written ++ content }, true) :=
  rfl

theorem writeParts_unlimited (written : Bytes) (parts : List (Part × Bytes)) :
    writeParts { written := written } parts =
      ({ written := written ++ parts.flatMap Prod.snd }, .ok ()) := by
  induction parts generalizing written with
  | nil => simp [writeParts]
  | cons entry parts ih =>
      obtain ⟨part, content⟩ := entry
      rw [writeParts, Sink.write_unlimited]
      simp only [if_true]
      rw [ih, List.flatMap_cons, List.append_assoc]

/-! ## Printers along a list -/

/-- What a printer writes for resources, one after the other. -/
def Printer.stream : Printer → List Resource → Bytes
  | _, [] => []
  | printer, resource :: resources =>
    (printer.parts resource).flatMap Prod.snd ++ printer.next.stream resources

/-- The printer after it has printed resources. -/
def Printer.after : Printer → List Resource → Printer
  | printer, [] => printer
  | printer, _ :: resources => printer.next.after resources

theorem Press.printAll_unlimited (printer : Printer) (written : Bytes)
    (resources : List Resource) :
    Press.printAll ⟨printer, { written := written }⟩ resources =
      (⟨printer.after resources, { written := written ++ printer.stream resources }⟩, .ok ()) := by
  induction resources generalizing printer written with
  | nil => simp [Press.printAll, Printer.after, Printer.stream]
  | cons resource resources ih =>
      have hprint : Press.print ⟨printer, { written := written }⟩ resource =
          (⟨printer.next,
            { written := written ++ (printer.parts resource).flatMap Prod.snd }⟩, .ok ()) := by
        simp only [Press.print, writeParts_unlimited]
      rw [Press.printAll, hprint]
      simp only
      rw [ih, Printer.stream, Printer.after, List.append_assoc]

theorem Printer.stream_json (resources : List Resource) :
    Printer.json.stream resources =
      resources.flatMap fun resource => Text.encode (resource.document.pretty ++ "\n") := by
  induction resources with
  | nil => rfl
  | cons resource resources ih =>
      simp only [Printer.stream, Printer.parts, Printer.next, ih, List.flatMap_cons,
        List.flatMap_nil, List.append_nil, Text.encode_append]

theorem Printer.stream_name (resources : List Resource) :
    Printer.name.stream resources =
      resources.flatMap fun resource => Text.encode resource.nameLine := by
  induction resources with
  | nil => rfl
  | cons resource resources ih =>
      simp only [Printer.stream, Printer.parts, Printer.next, ih, List.flatMap_cons,
        List.flatMap_nil, List.append_nil]

/-- Once an object has been printed, every further one is preceded by a separator. -/
theorem Printer.stream_yaml_succ (printed : Nat) (resources : List Resource) :
    (Printer.yaml (printed + 1)).stream resources =
      resources.flatMap fun resource =>
        separatorLine ++ Text.encode (Yaml.document resource.document) := by
  induction resources generalizing printed with
  | nil => rfl
  | cons resource resources ih =>
      simp only [Printer.stream, Printer.parts, Printer.next, ih, Nat.add_eq_zero_iff,
        Nat.one_ne_zero, and_false, if_false, List.flatMap_cons, List.flatMap_append,
        List.flatMap_nil, List.append_nil, separatorLine]

/-- A new printer writes the rendering. -/
theorem Printer.stream_ofFormat (format : Format) (promotions : List Promotion) :
    (Printer.ofFormat format).stream (promotions.map Promotion.resource) =
      rendering (some format) promotions := by
  cases format with
  | json => simp only [Printer.ofFormat, Printer.stream_json, rendering, List.flatMap_map]
  | name => simp only [Printer.ofFormat, Printer.stream_name, rendering, List.flatMap_map]
  | yaml =>
      cases promotions with
      | nil => rfl
      | cons promotion promotions =>
          simp only [Printer.ofFormat, List.map_cons, Printer.stream, Printer.parts,
            Printer.next, Printer.stream_yaml_succ, rendering, Promotion.blockDocument,
            if_true, List.nil_append, List.flatMap_cons, List.flatMap_nil, List.append_nil,
            List.flatMap_map]

/-! ## Showing promotions -/

/-- A presentation that has not shown anything leaves the rendering in a sink that
takes everything. -/
theorem Presentation.show_fresh (format : Option Format) (promotions : List Promotion)
    (written : Bytes) :
    ((Presentation.fresh format).show promotions { written := written }).2 =
      ({ written := written ++ rendering format promotions }, .ok ()) := by
  cases format with
  | none =>
      simp only [Presentation.fresh, Presentation.show, writeParts_unlimited, List.flatMap_map,
        rendering]
  | some format =>
      simp only [Presentation.fresh, Presentation.show, Press.printAll_unlimited,
        Printer.stream_ofFormat]

end FreightPromotion
