import FreightPromotion.Proofs.Json.Stored
import FreightPromotion.Proofs.Members

/-!
# Promotions and their documents

A promotion that was read is read again from its document (`Promotion.reads_document`) and
from the one that presents it (`Promotion.reads_resource`), in either arrangement, though both
leave out what is empty, absent or null: reading puts the same back.  To a reader of values,
the document that presents it is an object with the members of `Promotion.shown`, of which the
metadata have theirs in the order of the keys.

What was read has its maps in order, and its free-form documents can be read again if
they hold no fraction (`Promotion.proper_of_decoded`).
-/

namespace FreightPromotion

open FreightPromotion.Json (Arrangement Ascending Readable Regular Stores Whole deepest
  memberNesting)
open FreightPromotion.Text (Bytes encode)

/-! ## Metadata -/

namespace Metadata

/-- The members of the document. -/
def members (metadata : Metadata) : List Json.Member :=
  ("name", .text metadata.name) ::
    (textMember "namespace" metadata.namespaceName ++
      optionalMember "creationTimestamp" (metadata.creationTimestamp.map .text) ++
      mapMember "labels" metadata.labels ++
      mapMember "annotations" metadata.annotations)

/-- The members in the order of their keys. -/
def ordered (metadata : Metadata) : List Json.Member :=
  mapMember "annotations" metadata.annotations ++
    optionalMember "creationTimestamp" (metadata.creationTimestamp.map .text) ++
    mapMember "labels" metadata.labels ++
    ("name", .text metadata.name) :: textMember "namespace" metadata.namespaceName

/-- The maps are in the order of their keys, as they are when they were read. -/
structure Proper (metadata : Metadata) : Prop where
  labels : Ascending metadata.labels
  annotations : Ascending metadata.annotations

theorem document_eq (metadata : Metadata) : metadata.document = .object metadata.members := rfl

theorem entered_members (metadata : Metadata) :
    Json.entered metadata.members = metadata.ordered := by
  obtain ⟨name, namespaceName, stamp, labels, annotations⟩ := metadata
  by_cases hnamespace : namespaceName.isEmpty <;> cases stamp <;> cases labels <;>
    cases annotations <;>
    simp +decide only [members, ordered, Json.entered, Json.enter, textMember, optionalMember,
      mapMember, hnamespace, List.foldl_cons, List.foldl_nil, List.cons_append, List.nil_append,
      List.isEmpty_nil, List.isEmpty_cons, Option.map_some, Option.map_none, if_true, if_false]

theorem fields_agree : ∀ field ∈ fields, field.Agrees := by
  simp [fields, Json.Field.of_agrees, Json.agrees_readText, Json.agrees_readTextMap,
    Json.agrees_readOptional]

theorem fields_nodup : (fields.map (·.name)).Nodup := by
  decide

theorem regular_read (nesting : Nat) : Regular (read nesting) :=
  Json.regular_readRecord fields_agree fields_nodup nesting

/-! ### The parts of the document -/

section Parts

variable {arrangement : Arrangement} {nesting depth : Nat} {record : Metadata}

theorem stores_name (text : String) :
    Stores arrangement fields nesting depth [("name", .text text)] record
      { record with name := text } :=
  .known (fun (metadata : Metadata) value => { metadata with name := value }) rfl
    (Json.regular_readText nesting) (arrangement.reads_readText text)

theorem stores_namespace (text : String) (hrecord : record.namespaceName = "") :
    Stores arrangement fields nesting depth (textMember "namespace" text) record
      { record with namespaceName := text } := by
  refine stores_textMember
    (fun (metadata : Metadata) value => { metadata with namespaceName := value }) text rfl ?_
  rw [← hrecord]

theorem stores_creationTimestamp (stamp : Option String)
    (hrecord : record.creationTimestamp = none) :
    Stores arrangement fields nesting depth
      (optionalMember "creationTimestamp" (stamp.map .text)) record
      { record with creationTimestamp := stamp } := by
  refine stores_optionalText
    (fun (metadata : Metadata) value => { metadata with creationTimestamp := value }) stamp rfl ?_
  rw [← hrecord]

theorem stores_labels {labels : List (String × String)} (hordered : Ascending labels)
    (hrecord : record.labels = []) :
    Stores arrangement fields (nesting + 1) depth (mapMember "labels" labels) record
      { record with labels := labels } := by
  refine stores_mapMember
    (fun (metadata : Metadata) value => { metadata with labels := value }) hordered rfl ?_
  rw [← hrecord]

theorem stores_annotations {annotations : List (String × String)}
    (hordered : Ascending annotations) (hrecord : record.annotations = []) :
    Stores arrangement fields (nesting + 1) depth (mapMember "annotations" annotations) record
      { record with annotations := annotations } := by
  refine stores_mapMember
    (fun (metadata : Metadata) value => { metadata with annotations := value }) hordered rfl ?_
  rw [← hrecord]

end Parts

/-! ### Reading the document -/

section Reading

variable {arrangement : Arrangement} {metadata : Metadata} {nesting depth : Nat}

theorem keys_members (metadata : Metadata) : (metadata.members.map Prod.fst).Nodup := by
  have hkeys : (metadata.members.map Prod.fst).Sublist
      ["name", "namespace", "creationTimestamp", "labels", "annotations"] := by
    simp only [members, List.map_cons, List.map_append]
    exact .cons_cons _ ((((keys_textMember _ _).append (keys_optionalMember _ _)).append
      (keys_mapMember _ _)).append (keys_mapMember _ _))
  exact hkeys.nodup (by decide)

theorem keys_ordered (metadata : Metadata) : (metadata.ordered.map Prod.fst).Nodup := by
  have hkeys : (metadata.ordered.map Prod.fst).Sublist
      ["annotations", "creationTimestamp", "labels", "name", "namespace"] := by
    simp only [ordered, List.map_cons, List.map_append]
    exact ((((keys_mapMember _ _).append (keys_optionalMember _ _)).append
      (keys_mapMember _ _)).append (.cons_cons _ (keys_textMember _ _)))
  exact hkeys.nodup (by decide)

/-- Metadata are read back from their document. -/
theorem reads_document (hproper : metadata.Proper) :
    arrangement.Reads (read (nesting + 2)) depth metadata.document metadata := by
  have hstores :
      Stores arrangement fields (nesting + 1) (depth + 1) metadata.members {} metadata :=
    (stores_name metadata.name).append <|
      (((stores_namespace metadata.namespaceName rfl).append
        (stores_creationTimestamp metadata.creationTimestamp rfl)).append
          (stores_labels hproper.labels rfl)).append
            (stores_annotations hproper.annotations rfl)
  exact arrangement.reads_record fields_agree fields_nodup (keys_members metadata) hstores

/-- They are read back in the order of the keys as well. -/
theorem reads_ordered (hproper : metadata.Proper) :
    Arrangement.indented.Reads (read (nesting + 2)) depth (.object metadata.ordered) metadata := by
  have hstores :
      Stores .indented fields (nesting + 1) (depth + 1) metadata.ordered {} metadata :=
    (((stores_annotations hproper.annotations rfl).append
      (stores_creationTimestamp metadata.creationTimestamp rfl)).append
        (stores_labels hproper.labels rfl)).append <|
          (stores_name metadata.name).append (stores_namespace metadata.namespaceName rfl)
  exact Arrangement.indented.reads_record fields_agree fields_nodup (keys_ordered metadata) hstores

/-- A reader of values finds the members in the order of their keys. -/
theorem reads_value (hproper : metadata.Proper) :
    arrangement.Reads (Json.readValue (nesting + 2)) depth metadata.document
      (.object metadata.ordered) := by
  have hstamp : ∀ value ∈ metadata.creationTimestamp.map Json.Value.text,
      Readable (nesting + 1) value := by
    intro value hvalue
    obtain ⟨stamp, -, rfl⟩ := Option.map_eq_some_iff.mp hvalue
    exact .text stamp
  have hreadable : ∀ member ∈ metadata.members, Readable (nesting + 1) member.2 := by
    simp only [members, List.forall_mem_cons, List.forall_mem_append]
    exact ⟨.text _, ⟨⟨readable_of_mem_textMember, forall_mem_optionalMember hstamp⟩,
      readable_of_mem_mapMember hproper.labels⟩, readable_of_mem_mapMember hproper.annotations⟩
  rw [document_eq, ← entered_members]
  exact arrangement.reads_object <| List.forall₂_same.mpr fun member hmember =>
    ⟨rfl, arrangement.reads_readable (hreadable member hmember)⟩

theorem proper_of_read {input after : Bytes}
    (hread : read nesting input = .ok (metadata, after)) : metadata.Proper := by
  cases nesting with
  | zero => exact absurd hread Json.readRecord_zero
  | succ nesting =>
      obtain ⟨given, -, hstore⟩ := (Json.readRecord_eq_ok_iff fields_agree fields_nodup).mp hread
      have hblank : Proper {} := ⟨.nil, .nil⟩
      refine Json.storeAll_induction (motive := Proper) ?_ hblank hstore
      intro field hfield record next input after hrecord hnext
      simp only [fields, List.mem_cons, List.not_mem_nil, or_false] at hfield
      -- Only a map replaces one of the maps.
      rcases hfield with rfl | rfl | rfl | rfl | rfl <;>
        obtain ⟨value, hvalue, rfl⟩ := Json.Field.of_read_eq_ok_iff.mp hnext
      · exact ⟨hrecord.labels, hrecord.annotations⟩
      · exact ⟨hrecord.labels, hrecord.annotations⟩
      · exact ⟨hrecord.labels, hrecord.annotations⟩
      · exact ⟨Json.ascending_of_readTextMap hvalue, hrecord.annotations⟩
      · exact ⟨hrecord.labels, Json.ascending_of_readTextMap hvalue⟩

end Reading

end Metadata

/-! ## Promotions -/

namespace Promotion

/-- The maps are in order, and what is free-form can be read. -/
structure Proper (promotion : Promotion) : Prop where
  metadata : promotion.metadata.Proper
  spec : Readable memberNesting promotion.spec
  status : ∀ status ∈ promotion.status, Readable memberNesting status ∧ status ≠ .null

/-- The promotion was read, as a document or as a part of one. -/
def Decoded (promotion : Promotion) : Prop :=
  ∃ nesting ≤ deepest, ∃ input after, read nesting input = .ok (promotion, after)

theorem fields_agree : ∀ field ∈ fields, field.Agrees := by
  simp [fields, Json.Field.of_agrees, (Metadata.regular_read _).agrees, Json.agrees_readValue,
    Json.agrees_readOptional]

theorem fields_nodup : (fields.map (·.name)).Nodup := by
  decide

theorem regular_read (nesting : Nat) : Regular (read nesting) :=
  Json.regular_readRecord fields_agree fields_nodup nesting

theorem read_agrees (nesting : Nat) : Json.Agrees (read nesting) :=
  (regular_read nesting).agrees

/-- The maps are in order, and what is free-form was found by the reader of values. -/
structure Found (nesting : Nat) (promotion : Promotion) : Prop where
  metadata : promotion.metadata.Proper
  spec : ∃ input after, Json.readValue nesting input = .ok (promotion.spec, after)
  status : ∀ status ∈ promotion.status,
    (∃ input after, Json.readValue nesting input = .ok (status, after)) ∧ status ≠ .null

theorem found_blank (nesting : Nat) : Found nesting {} where
  metadata := ⟨.nil, .nil⟩
  spec := by
    have hnull : Arrangement.indented.Reads (Json.readValue nesting) 0 .null .null :=
      Arrangement.indented.reads_null
    exact ⟨_, [], hnull Arrangement.indented.closes_nil⟩
  status := nofun

theorem found_of_read {promotion : Promotion} {nesting : Nat} {input after : Bytes}
    (hread : read (nesting + 1) input = .ok (promotion, after)) : promotion.Found nesting := by
  obtain ⟨given, -, hstore⟩ := (Json.readRecord_eq_ok_iff fields_agree fields_nodup).mp hread
  refine Json.storeAll_induction (motive := Found nesting) ?_ (found_blank nesting) hstore
  intro field hfield record next input after hrecord hnext
  simp only [fields, List.mem_cons, List.not_mem_nil, or_false] at hfield
  rcases hfield with rfl | rfl | rfl <;>
    obtain ⟨value, hvalue, rfl⟩ := Json.Field.of_read_eq_ok_iff.mp hnext
  · exact { hrecord with metadata := Metadata.proper_of_read hvalue }
  · exact { hrecord with spec := ⟨input, after, hvalue⟩ }
  · refine { hrecord with status := ?_ }
    rintro status rfl
    obtain ⟨hstatus, hnull⟩ := Json.readOptional_readValue_eq_some_iff.mp hvalue
    exact ⟨⟨input, after, hstatus⟩, hnull⟩

/-- A promotion without fractions that was read is proper. -/
theorem proper_of_decoded {promotion : Promotion} (hdecoded : promotion.Decoded)
    (hspec : Whole promotion.spec) (hstatus : ∀ status ∈ promotion.status, Whole status) :
    promotion.Proper := by
  obtain ⟨nesting, hnesting, input, after, hread⟩ := hdecoded
  cases nesting with
  | zero => exact absurd hread Json.readRecord_zero
  | succ nesting =>
      have hinner : nesting ≤ memberNesting := Nat.le_of_succ_le_succ hnesting
      have hfound := found_of_read hread
      have hreadable : ∀ value, Whole value →
          (∃ input after, Json.readValue nesting input = .ok (value, after)) →
          Readable memberNesting value := by
        rintro value hwhole ⟨input, after, hread⟩
        exact (Json.readable_of_readValue hread hwhole).mono hinner
      exact {
        metadata := hfound.metadata
        spec := hreadable _ hspec hfound.spec
        status := fun status hmem =>
          ⟨hreadable _ (hstatus status hmem) (hfound.status status hmem).1,
            (hfound.status status hmem).2⟩ }

/-! ### Reading the documents -/

/-- The members of the document. -/
def members (promotion : Promotion) : List Json.Member :=
  ("metadata", promotion.metadata.document) ::
    (freeMember "spec" promotion.spec ++ optionalMember "status" promotion.status)

/-- The members of the document that presents the promotion. -/
def resourceMembers (promotion : Promotion) : List Json.Member :=
  ("apiVersion", .text apiVersion) :: ("kind", .text kind) ::
    ("metadata", promotion.metadata.document) ::
      (freeMember "spec" promotion.spec ++ optionalMember "status" promotion.status)

/-- The members that a reader of values finds. -/
def shown (promotion : Promotion) : List Json.Member :=
  ("apiVersion", .text apiVersion) :: ("kind", .text kind) ::
    ("metadata", .object promotion.metadata.ordered) ::
      (freeMember "spec" promotion.spec ++ optionalMember "status" promotion.status)

theorem document_eq (promotion : Promotion) : promotion.document = .object promotion.members := rfl

theorem document_resource (promotion : Promotion) :
    promotion.resource.document = .object promotion.resourceMembers := rfl

section Parts

variable {arrangement : Arrangement} {depth : Nat} {record : Promotion}

theorem stores_metadata {metadata : Metadata} (hproper : metadata.Proper) :
    Stores arrangement fields memberNesting depth [("metadata", metadata.document)] record
      { record with metadata := metadata } :=
  .known (fun (promotion : Promotion) value => { promotion with metadata := value }) rfl
    (Metadata.regular_read memberNesting) (Metadata.reads_document hproper)

theorem stores_spec {spec : Json.Value} (hspec : Readable memberNesting spec)
    (hrecord : record.spec = .null) :
    Stores arrangement fields memberNesting depth (freeMember "spec" spec) record
      { record with spec := spec } := by
  refine stores_freeMember (fun (promotion : Promotion) value => { promotion with spec := value })
    hspec rfl ?_
  rw [← hrecord]

theorem stores_status {status : Option Json.Value}
    (hstatus : ∀ value ∈ status, Readable memberNesting value ∧ value ≠ .null)
    (hrecord : record.status = none) :
    Stores arrangement fields memberNesting depth (optionalMember "status" status) record
      { record with status := status } := by
  have hreads : ∀ value ∈ status,
      arrangement.Reads (Json.readOptional Json.readValue memberNesting) depth (id value)
        (some value) :=
    fun value hvalue _ hrest => Json.readOptional_readValue_eq_some_iff.mpr
      ⟨arrangement.reads_readable (hstatus value hvalue).1 hrest, (hstatus value hvalue).2⟩
  have hstores : Stores arrangement fields memberNesting depth
      (optionalMember "status" (status.map id)) record { record with status := status } := by
    refine stores_optionalMember
      (fun (promotion : Promotion) value => { promotion with status := value })
      (Json.regular_readValue memberNesting) hreads rfl ?_
    rw [← hrecord]
  rwa [Option.map_id] at hstores

end Parts

variable {promotion : Promotion}

theorem keys_shown (promotion : Promotion) : (promotion.shown.map Prod.fst).Sublist
    ["apiVersion", "kind", "metadata", "spec", "status"] := by
  -- Reading has changed the values only.
  have hkeys := promotion.resource.keys_document (document_resource promotion)
  exact hkeys

theorem ascending_shown (promotion : Promotion) : Ascending promotion.shown :=
  .sublist (keys_shown promotion) (by decide)

section Reading

variable {arrangement : Arrangement} {depth : Nat}

/-- What comes after the version and the kind makes up the promotion. -/
theorem stores_members (hproper : promotion.Proper) :
    Stores arrangement fields memberNesting depth promotion.members {} promotion :=
  (stores_metadata hproper.metadata).append <|
    (stores_spec hproper.spec rfl).append (stores_status hproper.status rfl)

/-- Reading the document of a promotion gives the promotion. -/
theorem reads_document (hproper : promotion.Proper) :
    arrangement.Reads (read deepest) depth promotion.document promotion := by
  have hkeys : (promotion.members.map Prod.fst).Nodup :=
    (((List.Sublist.refl _).cons _).cons _ |>.map Prod.fst).nodup
      ((keys_shown promotion).nodup (by decide))
  exact arrangement.reads_record fields_agree fields_nodup hkeys (stores_members hproper)

/-- Reading the document that presents a promotion gives the promotion. -/
theorem reads_resource (hproper : promotion.Proper) :
    arrangement.Reads (read deepest) depth promotion.resource.document promotion := by
  have hkeys : (promotion.resourceMembers.map Prod.fst).Nodup :=
    (keys_shown promotion).nodup (by decide)
  have hstores :
      Stores arrangement fields memberNesting (depth + 1) promotion.resourceMembers {} promotion :=
    (Stores.unknown (by decide) (arrangement.ends_text apiVersion)).append <|
      (Stores.unknown (by decide) (arrangement.ends_text kind)).append (stores_members hproper)
  exact arrangement.reads_record fields_agree fields_nodup hkeys hstores

end Reading

/-- A reader of values finds the members of the promotion that is shown. -/
theorem reads_shown (hproper : promotion.Proper) :
    Arrangement.indented.Reads (Json.readValue deepest) 0 promotion.resource.document
      (.object promotion.shown) := by
  have hlater : ∀ member ∈ freeMember "spec" promotion.spec ++
      optionalMember "status" promotion.status, Readable memberNesting member.2 := by
    rw [List.forall_mem_append]
    exact ⟨forall_mem_freeMember hproper.spec,
      forall_mem_optionalMember fun status hstatus => (hproper.status status hstatus).1⟩
  have hentries : Arrangement.indented.ReadsEntries (Json.readValue memberNesting) 1
      promotion.resourceMembers promotion.shown :=
    .cons ⟨rfl, Arrangement.reads_text _⟩ <| .cons ⟨rfl, Arrangement.reads_text _⟩ <|
      .cons ⟨rfl, Metadata.reads_value hproper.metadata⟩ <|
        List.forall₂_same.mpr fun member hmember =>
          ⟨rfl, Arrangement.reads_readable (hlater member hmember)⟩
  have hread := Arrangement.reads_object hentries
  rwa [Json.entered_of_ascending (ascending_shown promotion)] at hread

end Promotion

end FreightPromotion
