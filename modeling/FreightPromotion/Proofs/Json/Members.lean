import FreightPromotion.Json.Reader
import FreightPromotion.Proofs.Json.Passing

/-!
# Lists and objects by their parts

An object is a row of members and a list is a row of items, each of which is known
by the input at which its value is due.  `Members` and `Items` say which ones a
document has, and where it goes on, without saying what the values are.

Reading a list is reading each of its items (`readElements_eq_ok_iff`), and reading
an object is taking up its members one after another (`readMembers_eq_ok_iff`),
provided that a part is not read differently from how it is passed over.
-/

namespace FreightPromotion.Json

open FreightPromotion.Text (Bytes)
open Relation (ReflTransGen)

/-! ## Parts -/

/-- A member of an object: its key, the input at which its value is due, and what
follows the value. -/
inductive MemberAt : Bytes → String → Bytes → Bytes → Prop
  | mk {input quoted beyond value after : Bytes} {key : String}
      (hquote : skipBlanks input = '\"'.toUInt8 :: quoted)
      (hkey : readQuoted quoted = .ok (key, beyond))
      (hcolon : readColon beyond = .ok value)
      (hvalue : Passes value after) : MemberAt input key value after

/-- The members of an object after the first, and its closing bracket. -/
inductive MoreMembers : Bytes → List (String × Bytes) → Bytes → Prop
  | nil {input after : Bytes} (hend : skipBlanks input = '\x7d'.toUInt8 :: after) :
      MoreMembers input [] after
  | cons {input rest value beyond after : Bytes} {key : String} {members : List (String × Bytes)}
      (hcomma : skipBlanks input = ','.toUInt8 :: rest) (hmember : MemberAt rest key value beyond)
      (hmore : MoreMembers beyond members after) :
      MoreMembers input ((key, value) :: members) after

/-- The members of an object after its opening bracket, and its closing bracket. -/
inductive Members : Bytes → List (String × Bytes) → Bytes → Prop
  | nil {input after : Bytes} (hend : skipBlanks input = '\x7d'.toUInt8 :: after) :
      Members input [] after
  | cons {input value beyond after : Bytes} {key : String} {members : List (String × Bytes)}
      (hmember : MemberAt input key value beyond) (hmore : MoreMembers beyond members after) :
      Members input ((key, value) :: members) after

/-- The items of a list after the first, and its closing bracket. -/
inductive MoreItems : Bytes → List Bytes → Bytes → Prop
  | nil {input after : Bytes} (hend : skipBlanks input = ']'.toUInt8 :: after) :
      MoreItems input [] after
  | cons {input rest beyond after : Bytes} {items : List Bytes}
      (hcomma : skipBlanks input = ','.toUInt8 :: rest) (hitem : Passes rest beyond)
      (hmore : MoreItems beyond items after) : MoreItems input (skipBlanks rest :: items) after

/-- The items of a list after its opening bracket, and its closing bracket. -/
inductive Items : Bytes → List Bytes → Bytes → Prop
  | nil {input after : Bytes} (hend : skipBlanks input = ']'.toUInt8 :: after) :
      Items input [] after
  | cons {input beyond after : Bytes} {items : List Bytes} (hitem : Passes input beyond)
      (hmore : MoreItems beyond items after) : Items input (skipBlanks input :: items) after

variable {input after : Bytes}

/-! ## The first byte of a part -/

theorem skipSimple_closing {byte : UInt8} {rest : Bytes} {bracket? : Option Bracket}
    (hskip : skipSimple byte rest = .ok (bracket?, after)) :
    byte ≠ ']'.toUInt8 ∧ byte ≠ '\x7d'.toUInt8 := by
  constructor
  · rintro rfl
    have hletter : Char.ofUInt8 ']'.toUInt8 = ']' := by decide
    have hdigit : isDigit ']'.toUInt8 = false := by decide
    simp [skipSimple, hletter, hdigit] at hskip
  · rintro rfl
    have hletter : Char.ofUInt8 '\x7d'.toUInt8 = '\x7d' := by decide
    have hdigit : isDigit '\x7d'.toUInt8 = false := by decide
    simp [skipSimple, hletter, hdigit] at hskip

/-- No value starts with a closing bracket. -/
theorem Passes.exists_head (hpasses : Passes input after) :
    ∃ byte rest, skipBlanks input = byte :: rest ∧ byte ≠ ']'.toUInt8 ∧ byte ≠ '\x7d'.toUInt8 := by
  obtain ⟨next, hstep, -⟩ := hpasses.first_step []
  cases hstep with
  | word hnext hword => exact ⟨_, _, hnext, skipSimple_closing hword⟩
  | opening hnext hopening => exact ⟨_, _, hnext, skipSimple_closing hopening⟩

/-! ## Passing over lists and objects -/

theorem MemberAt.passes {key : String} {value : Bytes} (hmember : MemberAt input key value after) :
    Passes value after := by
  cases hmember with
  | mk hquote hkey hcolon hvalue => exact hvalue

theorem MemberAt.exists_head {key : String} {value : Bytes}
    (hmember : MemberAt input key value after) :
    ∃ quoted, skipBlanks input = '\"'.toUInt8 :: quoted := by
  cases hmember with
  | mk hquote hkey hcolon hvalue => exact ⟨_, hquote⟩

theorem skipKey_of_memberAt {key : String} {value : Bytes}
    (hmember : MemberAt input key value after) : skipKey input = .ok value := by
  cases hmember with
  | mk hquote hkey hcolon hvalue =>
      unfold readColon at hcolon
      simp only [skipKey, hquote, skipQuoted_of_readQuoted hkey, ne_eq, not_true, if_false]
      split at hcolon
      · contradiction
      · rename_i colon rest hnext
        split at hcolon
        · rename_i heq
          simp [hnext, heq, hcolon, bind, Except.bind]
        · contradiction

theorem memberAt_skipBlanks {key : String} {value : Bytes} :
    MemberAt (skipBlanks input) key value after ↔ MemberAt input key value after := by
  constructor
  · rintro ⟨hquote, hkey, hcolon, hvalue⟩
    exact .mk (by rwa [skipBlanks_skipBlanks] at hquote) hkey hcolon hvalue
  · rintro ⟨hquote, hkey, hcolon, hvalue⟩
    exact .mk (by rwa [skipBlanks_skipBlanks]) hkey hcolon hvalue

theorem MoreItems.reaches {items : List Bytes} (hitems : MoreItems input items after)
    (brackets : List Bracket) :
    ReflTransGen Skipping.Step ⟨.ended, .list :: brackets, input⟩ ⟨.ended, brackets, after⟩ := by
  induction hitems with
  | nil hend => exact .single (.closing nofun hend (by decide))
  | cons hcomma hitem hmore ih => exact .head (.nextItem hcomma) ((hitem _).trans ih)

theorem Items.reaches {items : List Bytes} (hitems : Items input items after)
    (brackets : List Bracket) :
    ReflTransGen Skipping.Step ⟨.opened, .list :: brackets, input⟩ ⟨.ended, brackets, after⟩ := by
  cases hitems with
  | nil hend => exact .single (.closing nofun hend (by decide))
  | cons hitem hmore =>
      obtain ⟨byte, rest, hnext, hlist, -⟩ := hitem.exists_head
      have hfirst : Passes (byte :: rest) _ := hnext ▸ passes_skipBlanks.mpr hitem
      refine .head (.firstItem hnext ?_) ((hfirst _).trans (hmore.reaches brackets))
      simpa [Bracket.closedBy] using hlist

theorem MoreMembers.reaches {members : List (String × Bytes)}
    (hmembers : MoreMembers input members after) (brackets : List Bracket) :
    ReflTransGen Skipping.Step ⟨.ended, .object :: brackets, input⟩
      ⟨.ended, brackets, after⟩ := by
  induction hmembers with
  | nil hend => exact .single (.closing nofun hend (by decide))
  | cons hcomma hmember hmore ih =>
      have hvalue := hmember.passes
      exact .head (.nextMember hcomma (skipKey_of_memberAt hmember)) ((hvalue _).trans ih)

theorem Members.reaches {members : List (String × Bytes)}
    (hmembers : Members input members after) (brackets : List Bracket) :
    ReflTransGen Skipping.Step ⟨.opened, .object :: brackets, input⟩
      ⟨.ended, brackets, after⟩ := by
  cases hmembers with
  | nil hend => exact .single (.closing nofun hend (by decide))
  | cons hmember hmore =>
      obtain ⟨quoted, hquote⟩ := hmember.exists_head
      have hkey := skipKey_of_memberAt (memberAt_skipBlanks.mpr hmember)
      rw [hquote] at hkey
      have hvalue := hmember.passes
      exact .head (.firstMember hquote (by decide) hkey) ((hvalue _).trans (hmore.reaches brackets))

/-! ## Lists and objects as values -/

theorem passes_list {rest : Bytes} {items : List Bytes}
    (hopen : skipBlanks input = '['.toUInt8 :: rest) (hitems : Items rest items after) :
    Passes input after := by
  intro brackets
  have hsimple : skipSimple '['.toUInt8 rest = .ok (some .list, rest) := by
    have hletter : Char.ofUInt8 '['.toUInt8 = '[' := by decide
    simp [skipSimple, hletter]
  exact .head (.opening hopen hsimple) (hitems.reaches brackets)

theorem passes_object {rest : Bytes} {members : List (String × Bytes)}
    (hopen : skipBlanks input = '\x7b'.toUInt8 :: rest) (hmembers : Members rest members after) :
    Passes input after := by
  intro brackets
  have hsimple : skipSimple '\x7b'.toUInt8 rest = .ok (some .object, rest) := by
    have hletter : Char.ofUInt8 '\x7b'.toUInt8 = '\x7b' := by decide
    simp [skipSimple, hletter]
  exact .head (.opening hopen hsimple) (hmembers.reaches brackets)

/-! ## Lengths -/

theorem MemberAt.length_lt {key : String} {value : Bytes} (hmember : MemberAt input key value after) :
    after.length < input.length := by
  have hkey := Skipping.skipKey_length (skipKey_of_memberAt hmember)
  exact hmember.passes.length_lt.trans hkey

/-! ## Reading lists -/

/-- A value that `read` finds ends where it is passed over. -/
def Agrees {α : Type} (read : Bytes → Except Fault (α × Bytes)) : Prop :=
  ∀ ⦃input value after⦄, read input = .ok (value, after) → Passes input after

theorem Passes.unique {other : Bytes} (hpasses : Passes input after)
    (hother : Passes input other) : after = other := by
  rw [← skipValue_eq_ok_iff] at hpasses hother
  exact Except.ok.inj (hpasses.symm.trans hother)

section Lists

variable {α : Type} {element : Bytes → Except Fault (α × Bytes)}

/-- What `read` finds at each of the inputs. -/
def Finds (element : Bytes → Except Fault (α × Bytes)) (items : List Bytes) (values : List α) :
    Prop :=
  List.Forall₂ (fun item value => ∃ left, element item = .ok (value, left)) items values

/-- One more item of a list, or its end. -/
theorem readMoreElements_succ (hagrees : Agrees element) {bound : Nat} {values : List α} :
    readMoreElements element (bound + 1) input = .ok (values, after) ↔
      skipBlanks input = ']'.toUInt8 :: after ∧ values = [] ∨
        ∃ rest value beyond more, skipBlanks input = ','.toUInt8 :: rest ∧
          element (skipBlanks rest) = .ok (value, beyond) ∧
          readMoreElements element bound beyond = .ok (more, after) ∧ values = value :: more := by
  have hbracket : ','.toUInt8 ≠ ']'.toUInt8 := by decide
  constructor
  · intro hread
    rw [readMoreElements] at hread
    split at hread
    · contradiction
    · rename_i byte rest hnext
      split at hread
      · rename_i hclosed
        subst hclosed
        cases hread
        exact .inl ⟨hnext, rfl⟩
      · split at hread
        · contradiction
        · rename_i hcomma
          rw [ne_eq, not_not] at hcomma
          subst hcomma
          split at hread
          · contradiction
          · rename_i next others hothers
            split at hread
            · contradiction
            · obtain ⟨⟨value, beyond⟩, hvalue, hmore⟩ := bind_eq_ok_iff.mp hread
              obtain ⟨⟨more, left⟩, hmore, hvalues⟩ := bind_eq_ok_iff.mp hmore
              cases hvalues
              exact .inr ⟨rest, value, beyond, more, hnext, hothers ▸ hvalue, hmore, rfl⟩
  · rintro (⟨hend, rfl⟩ | ⟨rest, value, beyond, more, hcomma, hvalue, hmore, rfl⟩)
    · simp [readMoreElements, hend]
    · have hitem : Passes rest beyond := passes_skipBlanks.mp (hagrees hvalue)
      obtain ⟨next, others, hothers, hnext, -⟩ := hitem.exists_head
      rw [hothers] at hvalue
      simp [readMoreElements, hcomma, hbracket, hothers, hnext, hvalue, hmore]

theorem readMoreElements_eq_ok_iff (hagrees : Agrees element) {bound : Nat} {values : List α}
    (hbound : input.length < bound) :
    readMoreElements element bound input = .ok (values, after) ↔
      ∃ items, MoreItems input items after ∧ Finds element items values := by
  constructor
  · intro hread
    induction bound generalizing input values with
    | zero => contradiction
    | succ bound ih =>
        rcases (readMoreElements_succ hagrees).mp hread with
          ⟨hend, rfl⟩ | ⟨rest, value, beyond, more, hcomma, hvalue, hmore, rfl⟩
        · exact ⟨[], .nil hend, .nil⟩
        · have hitem : Passes rest beyond := passes_skipBlanks.mp (hagrees hvalue)
          -- The bound outlasts the items, each of which takes a byte.
          have hlength : beyond.length < bound := by
            have hrest := skipBlanks_cons_length hcomma
            have hbeyond := hitem.length_lt
            omega
          obtain ⟨items, hitems, hfinds⟩ := ih hlength hmore
          exact ⟨_, .cons hcomma hitem hitems, .cons ⟨beyond, hvalue⟩ hfinds⟩
  · rintro ⟨items, hitems, hfinds⟩
    induction hitems generalizing bound values with
    | nil hend =>
        cases hfinds
        obtain ⟨bound, rfl⟩ := Nat.exists_eq_succ_of_ne_zero (Nat.ne_zero_of_lt hbound)
        exact (readMoreElements_succ hagrees).mpr (.inl ⟨hend, rfl⟩)
    | @cons input rest beyond after items hcomma hitem hmore ih =>
        rcases hfinds with _ | ⟨⟨left, hvalue⟩, hfinds⟩
        obtain ⟨bound, rfl⟩ := Nat.exists_eq_succ_of_ne_zero (Nat.ne_zero_of_lt hbound)
        -- The item is read up to where it is passed over, and the next one starts there.
        have hleft : left = beyond :=
          (passes_skipBlanks.mp (hagrees hvalue)).unique hitem
        rw [hleft] at hvalue
        have hlength : beyond.length < bound := by
          have hrest := skipBlanks_cons_length hcomma
          have hbeyond := hitem.length_lt
          omega
        exact (readMoreElements_succ hagrees).mpr
          (.inr ⟨rest, _, beyond, _, hcomma, hvalue, ih hlength hfinds, rfl⟩)

/-- Reading a list is reading each of its items. -/
theorem readElements_eq_ok_iff (hagrees : Agrees element) {values : List α} :
    readElements element input = .ok (values, after) ↔
      ∃ items, Items input items after ∧ Finds element items values := by
  unfold readElements
  constructor
  · intro hread
    split at hread
    · contradiction
    · rename_i byte rest hnext
      split at hread
      · rename_i hclosed
        subst hclosed
        cases hread
        exact ⟨[], .nil hnext, .nil⟩
      · obtain ⟨⟨value, beyond⟩, hvalue, hmore⟩ := bind_eq_ok_iff.mp hread
        obtain ⟨⟨more, left⟩, hmore, hvalues⟩ := bind_eq_ok_iff.mp hmore
        cases hvalues
        rw [← hnext] at hvalue
        have hitem : Passes input beyond := passes_skipBlanks.mp (hagrees hvalue)
        obtain ⟨items, hitems, hfinds⟩ :=
          (readMoreElements_eq_ok_iff hagrees (Nat.lt_succ_self _)).mp hmore
        exact ⟨_, .cons hitem hitems, .cons ⟨beyond, hvalue⟩ hfinds⟩
  · rintro ⟨items, hitems, hfinds⟩
    cases hitems with
    | nil hend =>
        cases hfinds
        simp [hend]
    | cons hitem hmore =>
        rcases hfinds with _ | ⟨⟨left, hvalue⟩, hfinds⟩
        have hleft := (passes_skipBlanks.mp (hagrees hvalue)).unique hitem
        obtain ⟨next, others, hothers, hnext, -⟩ := hitem.exists_head
        have hmore := (readMoreElements_eq_ok_iff hagrees (Nat.lt_succ_self _)).mpr
          ⟨_, hmore, hfinds⟩
        rw [hothers, hleft] at hvalue
        simp [hothers, hnext, hvalue, hmore]

end Lists

/-! ## Reading objects -/

section Objects

variable {σ : Type} {member : σ → String → Bytes → Except Fault (σ × Bytes)}
  {take : σ → String × Bytes → Option σ}

/-- `member` passes over the value of the member and takes it up with `take`. -/
def Takes (member : σ → String → Bytes → Except Fault (σ × Bytes))
    (take : σ → String × Bytes → Option σ) : Prop :=
  ∀ ⦃state next : σ⦄ ⦃key : String⦄ ⦃input after : Bytes⦄,
    member state key input = .ok (next, after) ↔
      ∃ value, readColon input = .ok value ∧ Passes value after ∧
        take state (key, value) = some next

/-- One more member of an object, or its end. -/
theorem readMoreMembers_succ (htakes : Takes member take) {bound : Nat} {state final : σ} :
    readMoreMembers member (bound + 1) state input = .ok (final, after) ↔
      skipBlanks input = '\x7d'.toUInt8 :: after ∧ final = state ∨
        ∃ rest key value beyond next, skipBlanks input = ','.toUInt8 :: rest ∧
          MemberAt rest key value beyond ∧ take state (key, value) = some next ∧
          readMoreMembers member bound next beyond = .ok (final, after) := by
  have hbracket : ','.toUInt8 ≠ '\x7d'.toUInt8 := by decide
  constructor
  · intro hread
    rw [readMoreMembers] at hread
    split at hread
    · contradiction
    · rename_i byte rest hnext
      split at hread
      · rename_i hclosed
        subst hclosed
        cases hread
        exact .inl ⟨hnext, rfl⟩
      · split at hread
        · contradiction
        · rename_i hcomma
          rw [ne_eq, not_not] at hcomma
          subst hcomma
          split at hread
          · contradiction
          · rename_i next others hothers
            split at hread
            · rename_i hquote
              subst hquote
              obtain ⟨⟨key, afterKey⟩, hkey, hread⟩ := bind_eq_ok_iff.mp hread
              obtain ⟨⟨next, beyond⟩, hmember, hmore⟩ := bind_eq_ok_iff.mp hread
              obtain ⟨value, hcolon, hvalue, htake⟩ := htakes.mp hmember
              exact .inr ⟨rest, key, value, beyond, next, hnext,
                .mk hothers hkey hcolon hvalue, htake, hmore⟩
            · split at hread <;> contradiction
  · rintro (⟨hend, rfl⟩ | ⟨rest, key, value, beyond, next, hcomma, hmember, htake, hmore⟩)
    · simp [readMoreMembers, hend]
    · cases hmember with
      | mk hquote hkey hcolon hvalue =>
          have hmember := htakes.mpr ⟨value, hcolon, hvalue, htake⟩
          simp [readMoreMembers, hcomma, hbracket, hquote, hkey, hmember, hmore]

theorem readMoreMembers_eq_ok_iff (htakes : Takes member take) {bound : Nat} {state final : σ}
    (hbound : input.length < bound) :
    readMoreMembers member bound state input = .ok (final, after) ↔
      ∃ members, MoreMembers input members after ∧ members.foldlM take state = some final := by
  constructor
  · intro hread
    induction bound generalizing input state with
    | zero => contradiction
    | succ bound ih =>
        rcases (readMoreMembers_succ htakes).mp hread with
          ⟨hend, rfl⟩ | ⟨rest, key, value, beyond, next, hcomma, hmember, htake, hmore⟩
        · exact ⟨[], .nil hend, rfl⟩
        · have hlength : beyond.length < bound := by
            have hrest := skipBlanks_cons_length hcomma
            have hbeyond := hmember.length_lt
            omega
          obtain ⟨members, hmembers, hfold⟩ := ih hlength hmore
          exact ⟨(key, value) :: members, .cons hcomma hmember hmembers, by simp [htake, hfold]⟩
  · rintro ⟨members, hmembers, hfold⟩
    induction hmembers generalizing bound state with
    | nil hend =>
        cases hfold
        obtain ⟨bound, rfl⟩ := Nat.exists_eq_succ_of_ne_zero (Nat.ne_zero_of_lt hbound)
        exact (readMoreMembers_succ htakes).mpr (.inl ⟨hend, rfl⟩)
    | @cons input rest value beyond after key members hcomma hmember hmore ih =>
        obtain ⟨bound, rfl⟩ := Nat.exists_eq_succ_of_ne_zero (Nat.ne_zero_of_lt hbound)
        obtain ⟨next, htake, hfold⟩ := Option.bind_eq_some_iff.mp hfold
        have hlength : beyond.length < bound := by
          have hrest := skipBlanks_cons_length hcomma
          have hbeyond := hmember.length_lt
          omega
        exact (readMoreMembers_succ htakes).mpr
          (.inr ⟨rest, key, value, beyond, next, hcomma, hmember, htake, ih hlength hfold⟩)

/-- Reading an object is taking up its members one after another. -/
theorem readMembers_eq_ok_iff (htakes : Takes member take) {state final : σ} :
    readMembers member state input = .ok (final, after) ↔
      ∃ members, Members input members after ∧ members.foldlM take state = some final := by
  unfold readMembers
  constructor
  · intro hread
    split at hread
    · contradiction
    · rename_i byte rest hnext
      split at hread
      · rename_i hclosed
        subst hclosed
        cases hread
        exact ⟨[], .nil hnext, rfl⟩
      · split at hread
        · rename_i hquote
          subst hquote
          obtain ⟨⟨key, afterKey⟩, hkey, hread⟩ := bind_eq_ok_iff.mp hread
          obtain ⟨⟨next, beyond⟩, hmember, hmore⟩ := bind_eq_ok_iff.mp hread
          obtain ⟨value, hcolon, hvalue, htake⟩ := htakes.mp hmember
          obtain ⟨members, hmembers, hfold⟩ :=
            (readMoreMembers_eq_ok_iff htakes (Nat.lt_succ_self _)).mp hmore
          exact ⟨(key, value) :: members, .cons (.mk hnext hkey hcolon hvalue) hmembers,
            by simp [htake, hfold]⟩
        · contradiction
  · rintro ⟨members, hmembers, hfold⟩
    cases hmembers with
    | nil hend =>
        cases hfold
        simp [hend]
    | cons hmember hmore =>
        obtain ⟨next, htake, hfold⟩ := Option.bind_eq_some_iff.mp hfold
        have hmore := (readMoreMembers_eq_ok_iff htakes (Nat.lt_succ_self _)).mpr
          ⟨_, hmore, hfold⟩
        cases hmember with
        | mk hquote hkey hcolon hvalue =>
            have hmember := htakes.mpr ⟨_, hcolon, hvalue, htake⟩
            have hbracket : '\"'.toUInt8 ≠ '\x7d'.toUInt8 := by decide
            simp [hquote, hbracket, hkey, hmember, hmore]

end Objects

end FreightPromotion.Json
