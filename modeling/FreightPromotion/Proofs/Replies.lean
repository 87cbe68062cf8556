import FreightPromotion.Client
import FreightPromotion.Proofs.Documents

/-!
# What the replies of the server say

The reply to the promotion into a stage, the reply to the promotion to subscribers
and the refusal are records.  `HoldsPromotion`, `ListsPromotions` and
`StatesRefusal` say what such a record holds by its members alone, in whatever order
they come and whatever other members there are, and the readers of the replies find
exactly that.

A member that is given twice, or one that cannot be read, spoils the document.  One
that is missing or null says nothing, except that a list must not be null.
-/

namespace FreightPromotion

open FreightPromotion.Json (Agrees Document Holds Says memberNesting)
open FreightPromotion.Text (Bytes)

/-! ## Replies to promotions -/

/-- The body is a record whose member is this promotion. -/
def HoldsPromotion (body : Bytes) (promotion : Promotion) : Prop :=
  ∃ given input after, Document ["promotion"] body given ∧
    given.lookup "promotion" = some input ∧
    Promotion.read memberNesting input = .ok (promotion, after)

/-- The body is a record whose member lists these promotions, or one that has no such
member and lists none. -/
def ListsPromotions (body : Bytes) (promotions : List Promotion) : Prop :=
  ∃ given, Document ["promotions"] body given ∧
    Says given "promotions" (Json.readList Promotion.read memberNesting) [] promotions

theorem read_stageReply_eq_some_iff {body : Bytes} {promotion : Promotion} :
    Json.read readStageReply body = .ok (some promotion) ↔ HoldsPromotion body promotion := by
  have hagrees : ∀ nesting, Agrees (Json.readOptional Promotion.read nesting) :=
    fun nesting => Json.agrees_readOptional (Promotion.read_agrees nesting)
  rw [readStageReply, Json.read_single_eq_ok_iff hagrees]
  constructor
  · rintro ⟨given, hdocument, hvalue⟩
    unfold Says at hvalue
    split at hvalue
    · contradiction
    · rename_i input hlookup
      obtain ⟨after, hread⟩ := hvalue
      exact ⟨given, input, after, hdocument, hlookup,
        (Json.readOptional_eq_some_iff Json.solid_readRecord).mp hread⟩
  · rintro ⟨given, input, after, hdocument, hlookup, hread⟩
    refine ⟨given, hdocument, ?_⟩
    simp only [Says, hlookup]
    exact ⟨after, (Json.readOptional_eq_some_iff Json.solid_readRecord).mpr hread⟩

theorem read_subscribersReply_eq_ok_iff {body : Bytes} {promotions : List Promotion} :
    Json.read readSubscribersReply body = .ok promotions ↔ ListsPromotions body promotions :=
  Json.read_single_eq_ok_iff (Json.agrees_readList Promotion.read_agrees)

/-! ## Refusals -/

/-- The body is a record whose members are the parts of this refusal.  The code and
the message are absent when they are missing or null. -/
def StatesRefusal (body : Bytes) (refusal : Refusal) : Prop :=
  ∃ given, Document ["code", "message", "promotions"] body given ∧
    Says given "code" (Json.readOptional Json.readText memberNesting) none refusal.code ∧
    Says given "message" (Json.readOptional Json.readText memberNesting) none refusal.message ∧
    Says given "promotions" (Json.readList Promotion.read memberNesting) [] refusal.promotions

namespace Refusal

/-- The fields of a refusal. -/
def fields : List (Json.Field Refusal) :=
  [.of "code" (Json.readOptional Json.readText) fun refusal value =>
      { refusal with code := value },
    .of "message" (Json.readOptional Json.readText) fun refusal value =>
      { refusal with message := value },
    .of "promotions" (Json.readList Promotion.read) fun refusal value =>
      { refusal with promotions := value }]

theorem fields_agree : ∀ field ∈ fields, field.Agrees := by
  simp [fields, Json.Field.of_agrees, Json.agrees_readOptional, Json.agrees_readText,
    Json.agrees_readList, Promotion.read_agrees]

theorem holds_code :
    Holds fields memberNesting "code" (Json.readOptional Json.readText memberNesting) code :=
  .of (fun refusal value => { refusal with code := value }) (by simp [fields]) (fun _ _ => rfl)
    (by simp [fields, Json.Field.of_keeps])

theorem holds_message :
    Holds fields memberNesting "message" (Json.readOptional Json.readText memberNesting) message :=
  .of (fun refusal value => { refusal with message := value }) (by simp [fields])
    (fun _ _ => rfl) (by simp [fields, Json.Field.of_keeps])

theorem holds_promotions :
    Holds fields memberNesting "promotions" (Json.readList Promotion.read memberNesting)
      promotions :=
  .of (fun refusal value => { refusal with promotions := value }) (by simp [fields])
    (fun _ _ => rfl) (by simp [fields, Json.Field.of_keeps])

theorem read_eq_ok_iff {body : Bytes} {refusal : Refusal} :
    Json.read read body = .ok refusal ↔ StatesRefusal body refusal := by
  have hnodup : (fields.map (·.name)).Nodup := by decide
  have hread : read = Json.readRecord "RpcErrorBody" fields {} := rfl
  rw [hread, Json.read_readRecord_eq_ok_iff fields_agree hnodup]
  constructor
  · rintro ⟨given, hdocument, hstore⟩
    have hdistinct := hdocument.distinct hnodup
    exact ⟨given, hdocument, Json.says_of_storeAll holds_code hdistinct hstore,
      Json.says_of_storeAll holds_message hdistinct hstore,
      Json.says_of_storeAll holds_promotions hdistinct hstore⟩
  · rintro ⟨given, hdocument, hcode, hmessage, hpromotions⟩
    have hdistinct := hdocument.distinct hnodup
    have hreadable : ∀ member ∈ given, ∀ field ∈ fields, field.name = member.1 → ∀ record,
        ∃ next left, field.read memberNesting record member.2 = .ok (next, left) := by
      intro member hmember
      have hname : member.1 ∈ ["code", "message", "promotions"] := hdocument.known member hmember
      rcases List.mem_cons.mp hname with hname | hname
      · exact holds_code.readable hdistinct hcode member hmember hname
      · rcases List.mem_cons.mp hname with hname | hname
        · exact holds_message.readable hdistinct hmessage member hmember hname
        · exact holds_promotions.readable hdistinct hpromotions member hmember
            (List.mem_singleton.mp hname)
    obtain ⟨final, hstore⟩ := Json.exists_storeAll hdocument.known hreadable ({} : Refusal)
    -- Each part of what was stored is what its member says, and so is each part of `refusal`.
    have hfinal : final = refusal := by
      have hcode := (Json.says_of_storeAll holds_code hdistinct hstore).unique hcode
      have hmessage := (Json.says_of_storeAll holds_message hdistinct hstore).unique hmessage
      have hpromotions :=
        (Json.says_of_storeAll holds_promotions hdistinct hstore).unique hpromotions
      cases final
      cases refusal
      simp_all
    exact ⟨given, hdocument, hfinal ▸ hstore⟩

end Refusal

end FreightPromotion
