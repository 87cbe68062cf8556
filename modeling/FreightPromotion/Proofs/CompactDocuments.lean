import FreightPromotion.Proofs.Documents

/-!
# Compact documents of promotions

A promotion has two documents: its own, and the one that presents it as a resource, with its
version and its kind before the rest.  Printed without a blank, they have the rest in common
(`compact_document`, `compact_resource`), and the promotion is read again from what is printed
(`document_reads_back_beside_resource`).

What is empty, absent or null leaves no member behind, and reading no member puts it back.
-/

namespace FreightPromotion

open FreightPromotion.Json (Arrangement Readable Whole compactMembers compactMoreMembers deepest)
open FreightPromotion.Text (Bytes encode)

/-! ## Members -/

/-- A comma comes between a member and those after it. -/
theorem Json.compactMembers_cons (key : String) (value : Json.Value) {members : List Json.Member}
    (hmembers : members ≠ []) :
    compactMembers ((key, value) :: members) =
      (Json.textWord key ++ ":" ++ value.compact ++ ",") ++ compactMembers members := by
  cases members with
  | nil => contradiction
  | cons member members =>
      obtain ⟨next, other⟩ := member
      simp only [compactMembers, compactMoreMembers, String.append_assoc]

namespace Promotion

variable (promotion : Promotion)

theorem compact_document :
    promotion.document.compact = "\x7b" ++ compactMembers promotion.members ++ "\x7d" := by
  rw [document_eq, Json.Value.compact]

/-- The version and the kind come before the members of the document. -/
theorem compact_resource :
    promotion.resource.document.compact =
      "\x7b" ++
        ("\"apiVersion\":\"kargo.akuity.io/v1alpha1\",\"kind\":\"Promotion\"," ++
          compactMembers promotion.members) ++ "\x7d" := by
  have hmembers : promotion.resourceMembers =
      ("apiVersion", .text apiVersion) :: ("kind", .text kind) :: promotion.members := rfl
  have hwords :
      (Json.textWord "apiVersion" ++ ":" ++ (Json.Value.text apiVersion).compact ++ ",") ++
          (Json.textWord "kind" ++ ":" ++ (Json.Value.text kind).compact ++ ",") =
        "\"apiVersion\":\"kargo.akuity.io/v1alpha1\",\"kind\":\"Promotion\"," := by
    simp only [Json.Value.compact]
    decide
  have hpromotion : promotion.members ≠ [] := List.cons_ne_nil _ _
  rw [document_resource, Json.Value.compact, hmembers,
    Json.compactMembers_cons _ _ (List.cons_ne_nil _ _), Json.compactMembers_cons _ _ hpromotion,
    ← hwords]
  simp only [String.append_assoc]

end Promotion

/-! ## Reading back -/

/-- A promotion without fractions that was read from a document.  It is read again from its own
compact document, and the compact document that presents it has the version and the kind before
the same members. -/
theorem document_reads_back_beside_resource {text : Bytes} {promotion : Promotion}
    (hread : Json.read Promotion.read text = .ok promotion) (hspec : Whole promotion.spec)
    (hstatus : ∀ status ∈ promotion.status, Whole status) :
    Json.read Promotion.read (encode promotion.document.compact) = .ok promotion ∧
      ∃ body, promotion.document.compact = "\x7b" ++ body ++ "\x7d" ∧
        promotion.resource.document.compact =
          "\x7b" ++
            ("\"apiVersion\":\"kargo.akuity.io/v1alpha1\",\"kind\":\"Promotion\"," ++ body) ++
              "\x7d" := by
  obtain ⟨after, hfound, -⟩ := Json.read_eq_ok_iff.mp hread
  have hproper : promotion.Proper :=
    Promotion.proper_of_decoded ⟨deepest, le_rfl, text, after, hfound⟩ hspec hstatus
  have hreads : Arrangement.compact.Reads (Promotion.read deepest) 0 promotion.document promotion :=
    Promotion.reads_document hproper
  exact ⟨hreads.read_eq, compactMembers promotion.members, promotion.compact_document,
    promotion.compact_resource⟩

/-- A promotion with an empty map and texts that are escaped, read from a document on lines. -/
theorem escaped_promotion_reads_back :
    let spec : Json.Value :=
      .object [("", .array [.number (.integer 18446744073709551615), .object []]), ("a\"", .null)]
    let promotion : Promotion :=
      { metadata := { name := "\\\n", annotations := [("\u2028", ""), ("😀", "\t")] }
        spec := spec
        status := some (.array [.bool false, .number (.integer (-9223372036854775808))]) }
    Json.read Promotion.read (encode promotion.resource.document.pretty) = .ok promotion ∧
      Json.read Promotion.read (encode promotion.document.compact) = .ok promotion := by
  intro spec promotion
  have hempty : Readable 1 (.object []) := .object .nil (by simp)
  have hrange : Json.InRange 18446744073709551615 := by simp [Json.InRange]
  have hlist : Readable 2 (.array [.number (.integer 18446744073709551615), .object []]) :=
    .array (by simp [hempty, Readable.integer hrange])
  have hspec : Readable 3 spec := .object (by decide) (by simp [hlist, Readable.null])
  have hlowest : Json.InRange (-9223372036854775808) := by simp [Json.InRange]
  have hstatus : Readable 1 (.array [.bool false, .number (.integer (-9223372036854775808))]) :=
    .array (by simp [Readable.bool, Readable.integer hlowest])
  have hproper : promotion.Proper := {
    metadata := ⟨.nil, by decide⟩
    spec := hspec.mono (by decide)
    status := by simpa [promotion] using hstatus.mono (by decide) }
  have hreads :
      Arrangement.indented.Reads (Promotion.read deepest) 0 promotion.resource.document promotion :=
    Promotion.reads_resource hproper
  have hread := hreads.read_eq
  have hwhole : Whole spec :=
    .object (by simp [Whole.array, Whole.integer, Whole.null, Whole.object])
  exact ⟨hread, (document_reads_back_beside_resource hread hwhole
    (by simp [promotion, Whole.array, Whole.bool, Whole.integer])).1⟩

end FreightPromotion
