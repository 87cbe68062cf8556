import FreightPromotion.Proofs.Json.Stored
import FreightPromotion.Promotion
import Mathlib.Data.List.Basic

/-!
# Members that may be left out

A document leaves out the members that would be empty, absent or null, or a flag that is not set.
What is left has its keys in the order in which the members were put together, and each of them can
be looked up on its own.

A reader of records stores the same whether a member is left out or not, if the record holds
already what the member would say (`stores_textMember` and the like).
-/

namespace FreightPromotion

open FreightPromotion.Json (Arrangement Ascending Readable Regular Stores)

/-! ## Keys -/

theorem keys_textMember (key text : String) :
    ((textMember key text).map Prod.fst).Sublist [key] := by
  unfold textMember
  split_ifs <;> simp

theorem keys_mapMember (key : String) (entries : List (String × String)) :
    ((mapMember key entries).map Prod.fst).Sublist [key] := by
  unfold mapMember
  split_ifs <;> simp

theorem keys_optionalMember (key : String) (value? : Option Json.Value) :
    ((optionalMember key value?).map Prod.fst).Sublist [key] := by
  cases value? <;> simp [optionalMember]

theorem keys_freeMember (key : String) (value : Json.Value) :
    ((freeMember key value).map Prod.fst).Sublist [key] := by
  unfold freeMember
  split <;> simp

theorem keys_flagMember (key : String) (flag : Bool) (value : Json.Value) :
    ((if flag then [(key, value)] else []).map Prod.fst).Sublist [key] := by
  cases flag <;> simp

theorem mem_keys_optionalMember {key name : String} {value? : Option Json.Value} :
    name ∈ (optionalMember key value?).map Prod.fst ↔ name = key ∧ value?.isSome := by
  cases value? <;> simp [optionalMember]

/-- The keys of a resource come in this order. -/
theorem Resource.keys_document (resource : Resource) {members : List Json.Member}
    (hdocument : resource.document = .object members) :
    (members.map Prod.fst).Sublist ["apiVersion", "kind", "metadata", "spec", "status"] := by
  cases hdocument
  simp only [List.map_cons, List.map_append, List.cons_append, List.nil_append]
  exact ((((keys_freeMember _ _).append (keys_optionalMember _ _)).cons_cons _).cons_cons
    _).cons_cons _

/-! ## Values -/

theorem forall_mem_optionalMember {motive : Json.Value → Prop} {key : String}
    {value? : Option Json.Value} (hvalue : ∀ value ∈ value?, motive value) :
    ∀ member ∈ optionalMember key value?, motive member.2 := by
  cases value? with
  | none => simp [optionalMember]
  | some value => exact List.forall_mem_singleton.mpr (hvalue value rfl)

theorem forall_mem_freeMember {motive : Json.Value → Prop} {key : String} {value : Json.Value}
    (hvalue : motive value) : ∀ member ∈ freeMember key value, motive member.2 := by
  unfold freeMember
  split
  · simp
  · exact List.forall_mem_singleton.mpr hvalue

/-! ## Lookups -/

theorem lookup_singleton (key name : String) (value : Json.Value) :
    [(key, value)].lookup name = if name = key then some value else none := by
  rw [List.lookup_cons]
  by_cases hname : name = key
  · simp [hname]
  · simp [hname, beq_eq_false_iff_ne.mpr hname]

theorem lookup_optionalMember (key name : String) (value? : Option Json.Value) :
    (optionalMember key value?).lookup name = if name = key then value? else none := by
  cases value? <;> simp [optionalMember, lookup_singleton]

theorem lookup_freeMember_eq_some_iff {key name : String} {value found : Json.Value} :
    (freeMember key value).lookup name = some found ↔
      name = key ∧ found = value ∧ found ≠ .null := by
  unfold freeMember
  split
  · constructor
    · simp
    · rintro ⟨-, rfl, hnull⟩
      exact absurd rfl hnull
  · rename_i hnull
    rw [lookup_singleton]
    constructor
    · intro hfound
      split_ifs at hfound with hname
      cases hfound
      exact ⟨hname, rfl, hnull⟩
    · rintro ⟨rfl, rfl, -⟩
      exact if_pos rfl

/-! ## Reading -/

section Readable

variable {nesting : Nat} {key : String}

theorem readable_of_mem_textMember {text : String} :
    ∀ member ∈ textMember key text, Readable nesting member.2 := by
  unfold textMember
  split_ifs
  · simp
  · exact List.forall_mem_singleton.mpr (.text text)

theorem readable_of_mem_mapMember {entries : List (String × String)}
    (hordered : Ascending entries) :
    ∀ member ∈ mapMember key entries, Readable (nesting + 1) member.2 := by
  unfold mapMember
  split_ifs
  · simp
  · have hmembers : Ascending (entries.map fun entry => (entry.1, Json.Value.text entry.2)) := by
      simpa [Ascending, Function.comp_def] using hordered
    refine List.forall_mem_singleton.mpr (.object hmembers fun member hmember => ?_)
    obtain ⟨entry, -, rfl⟩ := List.mem_map.mp hmember
    exact .text entry.2

end Readable

section Stores

variable {arrangement : Arrangement} {σ : Type} {fields : List (Json.Field σ)}
  {nesting depth : Nat} {record : σ} {key : String}

theorem stores_textMember (store : σ → String → σ) (text : String)
    (hfield : fields.find? (·.name = key) = some (.of key Json.readText store))
    (hempty : store record "" = record) :
    Stores arrangement fields nesting depth (textMember key text) record (store record text) := by
  unfold textMember
  split_ifs with htext
  · rw [String.isEmpty_iff.mp htext, hempty]
    exact .nil
  · exact .known store hfield (Json.regular_readText nesting) (arrangement.reads_readText text)

theorem stores_mapMember (store : σ → List (String × String) → σ)
    {entries : List (String × String)} (hordered : Ascending entries)
    (hfield : fields.find? (·.name = key) = some (.of key Json.readTextMap store))
    (hempty : store record [] = record) :
    Stores arrangement fields (nesting + 1) depth (mapMember key entries) record
      (store record entries) := by
  unfold mapMember
  split_ifs with hentries
  · rw [List.isEmpty_iff.mp hentries, hempty]
    exact .nil
  · exact .known store hfield (Json.regular_readTextMap _) (arrangement.reads_readTextMap hordered)

theorem stores_optionalMember {α : Type} {reader : Json.Reader α} (store : σ → Option α → σ)
    {print : α → Json.Value} {found? : Option α} (hregular : Regular (reader nesting))
    (hreads : ∀ found ∈ found?,
      arrangement.Reads (Json.readOptional reader nesting) depth (print found) (some found))
    (hfield : fields.find? (·.name = key) = some (.of key (Json.readOptional reader) store))
    (hnone : store record none = record) :
    Stores arrangement fields nesting depth (optionalMember key (found?.map print)) record
      (store record found?) := by
  cases found? with
  | none =>
      rw [hnone]
      exact .nil
  | some found => exact .known store hfield (Json.regular_readOptional hregular) (hreads found rfl)

theorem stores_optionalText (store : σ → Option String → σ) (text? : Option String)
    (hfield : fields.find? (·.name = key) = some (.of key (Json.readOptional Json.readText) store))
    (hnone : store record none = record) :
    Stores arrangement fields nesting depth (optionalMember key (text?.map .text)) record
      (store record text?) :=
  stores_optionalMember store (Json.regular_readText nesting)
    (fun text _ => arrangement.reads_optionalText text) hfield hnone

theorem stores_freeMember (store : σ → Json.Value → σ) {value : Json.Value}
    (hreadable : Readable nesting value)
    (hfield : fields.find? (·.name = key) = some (.of key Json.readValue store))
    (hnull : store record .null = record) :
    Stores arrangement fields nesting depth (freeMember key value) record (store record value) := by
  unfold freeMember
  split
  · rw [hnull]
    exact .nil
  · exact .known store hfield (Json.regular_readValue nesting)
      (arrangement.reads_readable hreadable)

theorem stores_flagMember (store : σ → Bool → σ) (flag : Bool)
    (hfield : fields.find? (·.name = key) = some (.of key Json.readFlag store))
    (hunset : store record false = record) :
    Stores arrangement fields nesting depth (if flag then [(key, .bool true)] else []) record
      (store record flag) := by
  cases flag with
  | false =>
      rw [hunset]
      exact .nil
  | true => exact .known store hfield (Json.regular_readFlag nesting) arrangement.reads_readFlag

end Stores

end FreightPromotion
