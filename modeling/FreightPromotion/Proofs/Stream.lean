import FreightPromotion.Proofs.Documents
import FreightPromotion.Proofs.Rendering

/-!
# The stream of documents

What the printer of documents leaves is a document for each promotion, one after another,
and a reader that goes on where the last document ended finds them again
(`json_stream_shows_promotions`).  It cannot find anything else (`ReadsAll.unique`).

A document is closed by its own bracket, and the line break after it is a blank to the
reader of the next one, so that the documents are read independently of each other
(`readsAll_lines`).  What each of them shows is a matter of `Proofs.Documents`.
-/

namespace FreightPromotion

open FreightPromotion.Json (Agrees Arrangement Regular Whole deepest skipBlanks)
open FreightPromotion.Text (Bytes encode)

/-! ## Reading one document after another -/

/-- The input is a sequence of documents in which the reader finds these values. -/
inductive ReadsAll {α : Type} (reader : Json.Reader α) : Bytes → List α → Prop
  | done {input : Bytes} (hend : skipBlanks input = []) : ReadsAll reader input []
  | next {input rest : Bytes} {value : α} {values : List α}
      (hread : reader deepest input = .ok (value, rest)) (hmore : ReadsAll reader rest values) :
      ReadsAll reader input (value :: values)

section ReadsAll

variable {α : Type} {reader : Json.Reader α} {input : Bytes} {values others : List α}

theorem ReadsAll.of_blanks (hregular : Regular (reader deepest)) {blanks : Bytes}
    (hblanks : ∀ byte ∈ blanks, Json.isBlank byte) (hreads : ReadsAll reader input values) :
    ReadsAll reader (blanks ++ input) values := by
  cases hreads with
  | done hend => exact .done (by rw [Json.skipBlanks_append hblanks, hend])
  | next hread hmore =>
      refine .next ?_ hmore
      rw [← hregular.blanks, Json.skipBlanks_append hblanks, hregular.blanks, hread]

/-- There is one way to read a sequence of documents. -/
theorem ReadsAll.unique (hagrees : Agrees (reader deepest)) (hreads : ReadsAll reader input values)
    (hother : ReadsAll reader input others) : values = others := by
  -- No value is found where nothing but blanks is left.
  have hnone : ∀ {input rest : Bytes} {value : α}, skipBlanks input = [] →
      reader deepest input ≠ .ok (value, rest) := by
    intro input rest value hend hread
    obtain ⟨byte, more, hnext, -⟩ := (hagrees hread).exists_head
    rw [hend] at hnext
    contradiction
  induction hreads generalizing others with
  | done hend =>
      cases hother with
      | done => rfl
      | next hread => exact absurd hread (hnone hend)
  | next hread _ ih =>
      cases hother with
      | done hend => exact absurd hread (hnone hend)
      | next hother hmore =>
          rw [hread] at hother
          cases hother
          rw [ih hmore]

theorem readsAll_iff (hagrees : Agrees (reader deepest)) (hreads : ReadsAll reader input values) :
    ReadsAll reader input others ↔ others = values := by
  constructor
  · exact fun hother => hother.unique hagrees hreads
  · rintro rfl
    exact hreads

/-- Documents on lines of their own are read one after another. -/
theorem readsAll_lines {documents : List Json.Value} (hregular : Regular (reader deepest))
    (hreads : List.Forall₂ (Arrangement.indented.Reads (reader deepest) 0) documents values) :
    ReadsAll reader (documents.flatMap fun document => encode (document.pretty ++ "\n"))
      values := by
  induction hreads with
  | nil => exact .done rfl
  | cons hread _ ih =>
      rw [List.flatMap_cons, Text.encode_append, List.append_assoc]
      exact .next (hread (Json.delimited_lineFeed _))
        (ih.of_blanks hregular Json.isBlank_of_mem_lineFeed)

end ReadsAll

/-! ## What a document shows -/

/-- The members of an object that shows the promotion as a resource. -/
structure Promotion.ShownBy (promotion : Promotion) (members : List Json.Member) : Prop where
  distinct : (members.map Prod.fst).Nodup
  known : ∀ key ∈ members.map Prod.fst, key ∈ ["apiVersion", "kind", "metadata", "spec", "status"]
  apiVersion : members.lookup "apiVersion" = some (.text Promotion.apiVersion)
  kind : members.lookup "kind" = some (.text Promotion.kind)
  metadata : ∃ entries, members.lookup "metadata" = some (.object entries) ∧
    Json.read Metadata.read (encode (Json.Value.object entries).pretty) = .ok promotion.metadata
  spec : ∀ spec, members.lookup "spec" = some spec ↔ spec = promotion.spec ∧ spec ≠ .null
  status : members.lookup "status" = promotion.status

theorem Metadata.read_ordered {metadata : Metadata} (hproper : metadata.Proper) :
    Json.read Metadata.read (encode (Json.Value.object metadata.ordered).pretty) =
      .ok metadata := by
  have hreads :
      Arrangement.indented.Reads (Metadata.read deepest) 0 (.object metadata.ordered) metadata :=
    Metadata.reads_ordered hproper
  exact hreads.read_eq

namespace Promotion

variable {promotion : Promotion}

theorem decoded_of_proper (hproper : promotion.Proper) : promotion.Decoded := by
  have hreads : Arrangement.indented.Reads (read deepest) 0 promotion.resource.document promotion :=
    reads_resource hproper
  exact ⟨deepest, le_rfl, _, [], hreads Json.delimited_nil⟩

theorem shownBy_shown (hproper : promotion.Proper) : promotion.ShownBy promotion.shown where
  distinct := (keys_shown promotion).nodup (by decide)
  known _ hkey := (keys_shown promotion).subset hkey
  apiVersion := rfl
  kind := rfl
  metadata := ⟨promotion.metadata.ordered, rfl, Metadata.read_ordered hproper.metadata⟩
  spec := by
    intro spec
    have hlookup : promotion.shown.lookup "spec" =
        (freeMember "spec" promotion.spec ++ optionalMember "status" promotion.status).lookup
          "spec" := rfl
    rw [hlookup, List.lookup_append, lookup_optionalMember, if_neg (by decide), Option.or_none,
      lookup_freeMember_eq_some_iff]
    simp
  status := by
    have hlookup : promotion.shown.lookup "status" =
        (freeMember "spec" promotion.spec ++ optionalMember "status" promotion.status).lookup
          "status" := rfl
    have hspec : (freeMember "spec" promotion.spec).lookup "status" = none := by
      refine Option.eq_none_iff_forall_ne_some.mpr fun found hfound => ?_
      exact absurd (lookup_freeMember_eq_some_iff.mp hfound).1 (by decide)
    rw [hlookup, List.lookup_append, hspec, Option.none_or, lookup_optionalMember, if_pos rfl]

end Promotion

/-! ## The stream -/

/-- The output of a new printer of documents, for promotions that were read and hold no
fraction.  As a sequence of documents it is one object for each promotion in its order, which
shows that promotion, and as a sequence of promotions it is the same list again. -/
theorem json_stream_shows_promotions (promotions : List Promotion)
    (hdecoded : ∀ promotion ∈ promotions, promotion.Decoded)
    (hspec : ∀ promotion ∈ promotions, Whole promotion.spec)
    (hstatus : ∀ promotion ∈ promotions, ∀ status ∈ promotion.status, Whole status) :
    ∃ output documents,
      ((Presentation.fresh (some .json)).show promotions Sink.unlimited).2 =
          ({ written := output }, .ok ()) ∧
        (∀ values, ReadsAll Json.readValue output values ↔ values = documents) ∧
        List.Forall₂
          (fun promotion document =>
            ∃ members, document = .object members ∧ promotion.ShownBy members)
          promotions documents ∧
        ∀ others, ReadsAll Promotion.read output others ↔ others = promotions := by
  have hproper : ∀ promotion ∈ promotions, promotion.Proper := fun promotion hmem =>
    Promotion.proper_of_decoded (hdecoded promotion hmem) (hspec promotion hmem)
      (hstatus promotion hmem)
  have hrendering : rendering (some .json) promotions =
      (promotions.map fun promotion => promotion.resource.document).flatMap fun document =>
        encode (document.pretty ++ "\n") := by
    rw [List.flatMap_map]
    rfl
  have hvalues : ReadsAll Json.readValue (rendering (some .json) promotions)
      (promotions.map fun promotion => .object promotion.shown) := by
    rw [hrendering]
    refine readsAll_lines (Json.regular_readValue deepest) ?_
    rw [List.forall₂_map_left_iff, List.forall₂_map_right_iff, List.forall₂_same]
    exact fun promotion hmem => Promotion.reads_shown (hproper promotion hmem)
  have hpromotions : ReadsAll Promotion.read (rendering (some .json) promotions) promotions := by
    rw [hrendering]
    refine readsAll_lines (Promotion.regular_read deepest) ?_
    rw [List.forall₂_map_left_iff, List.forall₂_same]
    exact fun promotion hmem => Promotion.reads_resource (hproper promotion hmem)
  refine ⟨rendering (some .json) promotions, promotions.map fun promotion => .object promotion.shown,
    Presentation.show_fresh (some .json) promotions [],
    fun _ => readsAll_iff (Json.agrees_readValue deepest) hvalues, ?_,
    fun _ => readsAll_iff (Promotion.read_agrees deepest) hpromotions⟩
  rw [List.forall₂_map_right_iff, List.forall₂_same]
  exact fun promotion hmem => ⟨_, rfl, Promotion.shownBy_shown (hproper promotion hmem)⟩

/-- A promotion with quotes and line breaks in its name and with nested values, before one of
which only the name is known. -/
theorem nested_promotion_is_streamed :
    let spec : Json.Value :=
      .object [("list", .array [.number (.integer (-1)), .null, .array []]), ("more", .object [])]
    let first : Promotion :=
      { metadata := { name := "a\n\"", labels := [("b", ""), ("é", "\u2028")] }
        spec := spec
        status := some (.bool false) }
    let promotions := [first, .named "c"]
    ∃ output documents,
      ((Presentation.fresh (some .json)).show promotions Sink.unlimited).2 =
          ({ written := output }, .ok ()) ∧
        ReadsAll Json.readValue output documents ∧ documents.length = 2 ∧
        ReadsAll Promotion.read output promotions := by
  intro spec first promotions
  have hspec : Whole spec :=
    .object (by simp [Whole.array, Whole.integer, Whole.null, Whole.object])
  have hreadable : Json.Readable 3 spec := by
    have hrange : Json.InRange (-1) := by simp [Json.InRange]
    have hempty : Json.Readable 2 (.object []) := .object .nil (by simp)
    exact .object (by decide)
      (by simp [Json.Readable.array, Json.Readable.integer hrange, Json.Readable.null, hempty])
  have hfirst : first.Proper := {
    metadata := ⟨by decide, .nil⟩
    spec := hreadable.mono (by decide)
    status := by simp [first, Json.Readable.bool] }
  have hsecond : (Promotion.named "c").Proper := {
    metadata := ⟨.nil, .nil⟩
    spec := .null
    status := nofun }
  have hdecoded : ∀ promotion ∈ promotions, promotion.Decoded := by
    simp [promotions, Promotion.decoded_of_proper hfirst, Promotion.decoded_of_proper hsecond]
  obtain ⟨output, documents, houtput, hvalues, hshown, hpromotions⟩ :=
    json_stream_shows_promotions promotions hdecoded
      (by simp [promotions, first, Promotion.named, hspec, Whole.null])
      (by simp [promotions, first, Promotion.named, Whole.bool])
  exact ⟨output, documents, houtput, (hvalues _).mpr rfl, hshown.length_eq.symm,
    (hpromotions _).mpr rfl⟩

end FreightPromotion
