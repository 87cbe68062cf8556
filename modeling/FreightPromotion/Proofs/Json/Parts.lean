import FreightPromotion.Proofs.Json.Agreement
import FreightPromotion.Proofs.Json.Fields
import Mathlib.Data.List.Forall2
import Mathlib.Data.String.Basic

/-!
# Reading the parts of a document

The members of an object are entered by their keys (`entered`).  That changes nothing if
they are in the order of their keys, and it keeps what two objects with the same keys have in
common (`Matches`).

A reader that does not look at the blanks before a value is `Regular`.
-/

namespace FreightPromotion.Json

open FreightPromotion.Text (Bytes encode)

/-! ## Entries in the order of their keys -/

section Entries

variable {α : Type} {key : String} {value : α} {entries before : List (String × α)}

/-- The keys come in ascending order, none of them twice. -/
def Ascending (entries : List (String × α)) : Prop :=
  (entries.map Prod.fst).Pairwise (· < ·)

instance : Decidable (Ascending entries) :=
  inferInstanceAs (Decidable ((entries.map Prod.fst).Pairwise (· < ·)))

/-- The entries, entered one after another. -/
def entered (entries : List (String × α)) : List (String × α) :=
  entries.foldl (fun before entry => enter entry.1 entry.2 before) []

theorem mem_of_mem_enter {entry : String × α} (hentry : entry ∈ enter key value entries) :
    entry = (key, value) ∨ entry ∈ entries := by
  induction entries with
  | nil => exact .inl (List.mem_singleton.mp hentry)
  | cons first entries ih =>
      rw [enter] at hentry
      split_ifs at hentry
      · exact List.mem_cons.mp hentry
      · rcases List.mem_cons.mp hentry with hnew | hold
        · exact .inl hnew
        · exact .inr (List.mem_cons_of_mem _ hold)
      · rcases List.mem_cons.mp hentry with rfl | hlater
        · exact .inr List.mem_cons_self
        · exact (ih hlater).imp_right (List.mem_cons_of_mem _)

theorem ascending_enter (hentries : Ascending entries) : Ascending (enter key value entries) := by
  induction entries with
  | nil => simp [enter, Ascending]
  | cons first entries ih =>
      obtain ⟨hfirst, hlater⟩ := List.pairwise_cons.mp hentries
      rw [enter]
      split_ifs with hless hequal
      · refine List.pairwise_cons.mpr ⟨fun other hother => ?_, hentries⟩
        rcases List.mem_cons.mp hother with rfl | hother
        · exact hless
        · exact hless.trans (hfirst other hother)
      · subst hequal
        exact hentries
      · have hgreater : first.1 < key := lt_of_le_of_ne (not_lt.mp hless) (Ne.symm hequal)
        refine List.pairwise_cons.mpr ⟨fun other hother => ?_, ih hlater⟩
        obtain ⟨entry, hentry, rfl⟩ := List.mem_map.mp hother
        rcases mem_of_mem_enter hentry with rfl | hold
        · exact hgreater
        · exact hfirst _ (List.mem_map_of_mem hold)

theorem ascending_entered (entries : List (String × α)) : Ascending (entered entries) := by
  have hfold : ∀ before : List (String × α), Ascending before →
      Ascending (entries.foldl (fun before entry => enter entry.1 entry.2 before) before) := by
    induction entries with
    | nil => exact fun _ hbefore => hbefore
    | cons entry entries ih => exact fun _ hbefore => ih _ (ascending_enter hbefore)
  exact hfold [] .nil

theorem mem_of_mem_entered {entry : String × α} (hentry : entry ∈ entered entries) :
    entry ∈ entries := by
  have hfold : ∀ before : List (String × α),
      entry ∈ entries.foldl (fun before entry => enter entry.1 entry.2 before) before →
        entry ∈ entries ∨ entry ∈ before := by
    clear hentry
    induction entries with
    | nil => exact fun _ => .inr
    | cons first entries ih =>
        intro before hentry
        rcases ih _ hentry with hlater | hbefore
        · exact .inl (List.mem_cons_of_mem _ hlater)
        · rcases mem_of_mem_enter hbefore with rfl | hbefore
          · exact .inl List.mem_cons_self
          · exact .inr hbefore
  exact (hfold [] hentry).resolve_right List.not_mem_nil

/-- The greatest key is entered at the end. -/
theorem enter_of_forall_lt (hentries : ∀ entry ∈ entries, entry.1 < key) :
    enter key value entries = entries ++ [(key, value)] := by
  induction entries with
  | nil => rfl
  | cons first entries ih =>
      have hfirst : first.1 < key := hentries first List.mem_cons_self
      rw [enter, if_neg hfirst.not_gt, if_neg hfirst.ne',
        ih fun entry hentry => hentries entry (List.mem_cons_of_mem _ hentry), List.cons_append]

/-- Entries in order stay as they are. -/
theorem entered_of_ascending (hentries : Ascending entries) : entered entries = entries := by
  have hfold : ∀ later before : List (String × α), Ascending (before ++ later) →
      later.foldl (fun before entry => enter entry.1 entry.2 before) before = before ++ later := by
    intro later
    induction later with
    | nil => simp
    | cons entry later ih =>
        intro before hordered
        have hlast : ∀ other ∈ before, other.1 < entry.1 := by
          rw [Ascending, List.map_append, List.pairwise_append] at hordered
          exact fun other hother =>
            hordered.2.2 _ (List.mem_map_of_mem hother) _ List.mem_cons_self
        rw [List.foldl_cons, enter_of_forall_lt hlast, ih]
        · simp
        · simpa using hordered
  exact hfold entries [] hentries

end Entries

/-! ## Entries that match -/

section Matches

variable {α β γ : Type} {R : α → β → Prop} {S : α → γ → Prop} {T : β → γ → Prop}

/-- The entries have the same keys in the same order, and related values. -/
def Matches (R : α → β → Prop) (entries : List (String × α)) (others : List (String × β)) : Prop :=
  List.Forall₂ (fun entry other => entry.1 = other.1 ∧ R entry.2 other.2) entries others

variable {entries : List (String × α)} {others : List (String × β)}

theorem matches_iff :
    Matches R entries others ↔ entries.map Prod.fst = others.map Prod.fst ∧
      ∀ pair ∈ entries.zip others, R pair.1.2 pair.2.2 := by
  constructor
  · intro hmatches
    induction hmatches with
    | nil => simp
    | cons hentry _ ih =>
        simp only [List.map_cons, List.cons.injEq, List.zip_cons_cons, List.forall_mem_cons]
        exact ⟨⟨hentry.1, ih.1⟩, hentry.2, ih.2⟩
  · rintro ⟨hkeys, hvalues⟩
    induction entries generalizing others with
    | nil =>
        cases others with
        | nil => exact .nil
        | cons other others => simp at hkeys
    | cons entry entries ih =>
        cases others with
        | nil => simp at hkeys
        | cons other others =>
            rw [List.map_cons, List.map_cons, List.cons.injEq] at hkeys
            rw [List.zip_cons_cons, List.forall_mem_cons] at hvalues
            exact .cons ⟨hkeys.1, hvalues.1⟩ (ih hkeys.2 hvalues.2)

theorem Matches.keys (hmatches : Matches R entries others) :
    others.map Prod.fst = entries.map Prod.fst :=
  (matches_iff.mp hmatches).1.symm

/-- What is found under a key of both is related. -/
theorem Matches.lookup (hmatches : Matches R entries others) (name : String) :
    Option.Rel R (entries.lookup name) (others.lookup name) := by
  induction hmatches with
  | nil => exact .none
  | @cons entry other entries others hentry _ ih =>
      obtain ⟨key, value⟩ := entry
      obtain ⟨_, found⟩ := other
      obtain ⟨rfl, hvalue⟩ := hentry
      rw [List.lookup_cons, List.lookup_cons]
      cases name == key with
      | true => exact .some hvalue
      | false => exact ih

theorem Matches.eq {entries others : List (String × α)} (hmatches : Matches Eq entries others) :
    entries = others := by
  induction hmatches with
  | nil => rfl
  | cons hentry _ ih => rw [ih, Prod.ext hentry.1 hentry.2]

/-- Entering related values under the same key leaves entries that match. -/
theorem Matches.enter {key : String} {value : α} {found : β} (hmatches : Matches R entries others)
    (hvalue : R value found) : Matches R (enter key value entries) (enter key found others) := by
  induction hmatches with
  | nil => exact .cons ⟨rfl, hvalue⟩ .nil
  | @cons entry other entries others hentry hlater ih =>
      obtain ⟨first, present⟩ := entry
      obtain ⟨_, present'⟩ := other
      obtain ⟨rfl, hpresent⟩ := hentry
      rw [Json.enter, Json.enter]
      split_ifs
      · exact .cons ⟨rfl, hvalue⟩ (.cons ⟨rfl, hpresent⟩ hlater)
      · exact .cons ⟨rfl, hvalue⟩ hlater
      · exact .cons ⟨rfl, hpresent⟩ ih

theorem Matches.entered (hmatches : Matches R entries others) :
    Matches R (entered entries) (entered others) := by
  have hstep : ∀ before after, Matches R before after → ∀ (entry : String × α) (other : String × β),
      entry.1 = other.1 ∧ R entry.2 other.2 →
        Matches R (Json.enter entry.1 entry.2 before) (Json.enter other.1 other.2 after) := by
    rintro before after hbefore entry other ⟨hkey, hvalue⟩
    rw [← hkey]
    exact hbefore.enter hvalue
  exact List.rel_foldl (fun before after hbefore entry other => hstep before after hbefore entry other)
    List.Forall₂.nil hmatches

theorem forall_of_forall₂ {P : α → Prop} {first : List α} {second : List β}
    (hrelated : List.Forall₂ R first second) (himplies : ∀ a b, R a b → P a) :
    ∀ a ∈ first, P a := by
  induction hrelated with
  | nil => simp
  | cons hhead _ ih => exact List.forall_mem_cons.mpr ⟨himplies _ _ hhead, ih⟩

/-- What is related to the same list is related. -/
theorem forall₂_combine {first : List α} {second : List β} {third : List γ}
    (hsecond : List.Forall₂ R first second) (hthird : List.Forall₂ S first third)
    (hcombine : ∀ a b c, R a b → S a c → T b c) : List.Forall₂ T second third := by
  induction hsecond generalizing third with
  | nil =>
      cases hthird
      exact .nil
  | cons hhead _ ih =>
      cases hthird with
      | cons hother hlater => exact .cons (hcombine _ _ _ hhead hother) (ih hlater)

theorem Matches.combine {third : List (String × γ)} (hmatches : Matches R entries others)
    (hthird : Matches S entries third) (hcombine : ∀ a b c, R a b → S a c → T b c) :
    Matches T others third :=
  forall₂_combine hmatches hthird fun _ _ _ hother hentry =>
    ⟨hother.1.symm.trans hentry.1, hcombine _ _ _ hother.2 hentry.2⟩

end Matches

/-- Members that are read one after another are the entries that were found, entered. -/
theorem foldlM_enter_eq_some_iff {α : Type} {read : Bytes → Except Fault (α × Bytes)}
    {members : List (String × Bytes)} {before entries : List (String × α)} :
    members.foldlM
        (fun entries member =>
          (read member.2).toOption.map fun found => enter member.1 found.1 entries)
        before = some entries ↔
      ∃ found, Matches (fun input value => ∃ left, read input = .ok (value, left)) members found ∧
        entries = found.foldl (fun before entry => enter entry.1 entry.2 before) before := by
  constructor
  · intro hfold
    induction members generalizing before with
    | nil =>
        cases hfold
        exact ⟨[], .nil, rfl⟩
    | cons member members ih =>
        obtain ⟨next, hnext, hfold⟩ := Option.bind_eq_some_iff.mp hfold
        obtain ⟨⟨value, left⟩, hread, rfl⟩ := Option.map_eq_some_iff.mp hnext
        obtain ⟨found, hfound, rfl⟩ := ih hfold
        exact ⟨(member.1, value) :: found,
          .cons ⟨rfl, left, toOption_eq_some_iff.mp hread⟩ hfound, rfl⟩
  · rintro ⟨found, hfound, rfl⟩
    induction hfound generalizing before with
    | nil => rfl
    | cons hmember _ ih =>
        obtain ⟨hkey, left, hread⟩ := hmember
        rw [List.foldlM_cons, hread, hkey]
        exact ih

/-! ## Readers of printed values -/

/-- Does not look at blanks before the value, and finds its end where it is passed over. -/
structure Regular {α : Type} (read : Bytes → Except Fault (α × Bytes)) : Prop where
  blanks : ∀ input, read (skipBlanks input) = read input
  agrees : Agrees read

theorem withNext_skipBlanks {α : Type} {input : Bytes}
    {next : UInt8 → Bytes → Except Fault α} :
    withNext (skipBlanks input) next = withNext input next := by
  rw [withNext, withNext, skipBlanks_skipBlanks]

end FreightPromotion.Json
