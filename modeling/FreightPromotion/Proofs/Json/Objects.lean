import FreightPromotion.Proofs.Json.Agreement
import FreightPromotion.Proofs.Json.Fields

/-!
# Objects as documents

A body is an object with certain members if nothing but these members stands between its
brackets, and nothing but blanks around them (`IsObject`).  The members and their order are
determined by the body (`IsObject.unique`), so that what an object says can be stated member by
member, without a reader in mind.

A record finds in an object the members that its fields name (`IsObject.document_iff`).  Other
members do not count, wherever they stand.
-/

namespace FreightPromotion.Json

open FreightPromotion.Text (Bytes)

/-! ## Members and items are determined by the input -/

section Unique

variable {input after other : Bytes}

theorem MemberAt.unique {key otherKey : String} {value otherValue : Bytes}
    (hmember : MemberAt input key value after) (hother : MemberAt input otherKey otherValue other) :
    key = otherKey ∧ value = otherValue ∧ after = other := by
  cases hmember with
  | mk hquote hkey hcolon hvalue =>
      cases hother with
      | mk hquote' hkey' hcolon' hvalue' =>
          obtain ⟨-, rfl⟩ := List.cons.inj (hquote.symm.trans hquote')
          obtain ⟨rfl, rfl⟩ := Prod.mk.inj (Except.ok.inj (hkey.symm.trans hkey'))
          obtain rfl := Except.ok.inj (hcolon.symm.trans hcolon')
          exact ⟨rfl, rfl, hvalue.unique hvalue'⟩

theorem MoreMembers.unique {members otherMembers : List (String × Bytes)}
    (hmembers : MoreMembers input members after) (hother : MoreMembers input otherMembers other) :
    members = otherMembers ∧ after = other := by
  have hbytes : '\x7d'.toUInt8 ≠ ','.toUInt8 := by decide
  induction hmembers generalizing otherMembers with
  | nil hend =>
      cases hother with
      | nil hend' => exact ⟨rfl, (List.cons.inj (hend.symm.trans hend')).2⟩
      | cons hcomma' _ _ => exact absurd (List.cons.inj (hend.symm.trans hcomma')).1 hbytes
  | cons hcomma hmember _ ih =>
      cases hother with
      | nil hend' => exact absurd (List.cons.inj (hend'.symm.trans hcomma)).1 hbytes
      | cons hcomma' hmember' hmore' =>
          obtain ⟨-, rfl⟩ := List.cons.inj (hcomma.symm.trans hcomma')
          obtain ⟨rfl, rfl, rfl⟩ := hmember.unique hmember'
          obtain ⟨rfl, hafter⟩ := ih hmore'
          exact ⟨rfl, hafter⟩

theorem Members.unique {members otherMembers : List (String × Bytes)}
    (hmembers : Members input members after) (hother : Members input otherMembers other) :
    members = otherMembers ∧ after = other := by
  have hbytes : '\x7d'.toUInt8 ≠ '\"'.toUInt8 := by decide
  cases hmembers with
  | nil hend =>
      cases hother with
      | nil hend' => exact ⟨rfl, (List.cons.inj (hend.symm.trans hend')).2⟩
      | cons hmember' _ =>
          obtain ⟨quoted, hquote⟩ := hmember'.exists_head
          exact absurd (List.cons.inj (hend.symm.trans hquote)).1 hbytes
  | cons hmember hmore =>
      cases hother with
      | nil hend' =>
          obtain ⟨quoted, hquote⟩ := hmember.exists_head
          exact absurd (List.cons.inj (hend'.symm.trans hquote)).1 hbytes
      | cons hmember' hmore' =>
          obtain ⟨rfl, rfl, rfl⟩ := hmember.unique hmember'
          obtain ⟨rfl, hafter⟩ := hmore.unique hmore'
          exact ⟨rfl, hafter⟩

theorem MoreItems.unique {items otherItems : List Bytes} (hitems : MoreItems input items after)
    (hother : MoreItems input otherItems other) : items = otherItems ∧ after = other := by
  have hbytes : ']'.toUInt8 ≠ ','.toUInt8 := by decide
  induction hitems generalizing otherItems with
  | nil hend =>
      cases hother with
      | nil hend' => exact ⟨rfl, (List.cons.inj (hend.symm.trans hend')).2⟩
      | cons hcomma' _ _ => exact absurd (List.cons.inj (hend.symm.trans hcomma')).1 hbytes
  | cons hcomma hitem _ ih =>
      cases hother with
      | nil hend' => exact absurd (List.cons.inj (hend'.symm.trans hcomma)).1 hbytes
      | cons hcomma' hitem' hmore' =>
          obtain ⟨-, rfl⟩ := List.cons.inj (hcomma.symm.trans hcomma')
          obtain rfl := hitem.unique hitem'
          obtain ⟨rfl, hafter⟩ := ih hmore'
          exact ⟨rfl, hafter⟩

theorem Items.unique {items otherItems : List Bytes} (hitems : Items input items after)
    (hother : Items input otherItems other) : items = otherItems ∧ after = other := by
  -- No item starts with the closing bracket.
  have hbracket : ∀ {rest beyond}, skipBlanks input = ']'.toUInt8 :: rest → ¬ Passes input beyond := by
    intro rest beyond hend hitem
    obtain ⟨byte, others, hnext, hbyte, -⟩ := hitem.exists_head
    exact hbyte (List.cons.inj (hnext.symm.trans hend)).1
  cases hitems with
  | nil hend =>
      cases hother with
      | nil hend' => exact ⟨rfl, (List.cons.inj (hend.symm.trans hend')).2⟩
      | cons hitem' _ => exact absurd hitem' (hbracket hend)
  | cons hitem hmore =>
      cases hother with
      | nil hend' => exact absurd hitem (hbracket hend')
      | cons hitem' hmore' =>
          obtain rfl := hitem.unique hitem'
          obtain ⟨rfl, hafter⟩ := hmore.unique hmore'
          exact ⟨rfl, hafter⟩

end Unique

/-! ## Objects -/

/-- The body is an object with these members, each with the input at which its value is due, and
nothing comes after it. -/
def IsObject (body : Bytes) (members : List (String × Bytes)) : Prop :=
  ∃ rest after, skipBlanks body = '\x7b'.toUInt8 :: rest ∧ Members rest members after ∧
    skipBlanks after = []

section Objects

variable {body : Bytes} {members : List (String × Bytes)}

theorem IsObject.unique {other : List (String × Bytes)} (hobject : IsObject body members)
    (hother : IsObject body other) : members = other := by
  obtain ⟨rest, after, hopen, hmembers, -⟩ := hobject
  obtain ⟨rest', after', hopen', hmembers', -⟩ := hother
  obtain ⟨-, rfl⟩ := List.cons.inj (hopen.symm.trans hopen')
  exact (hmembers.unique hmembers').1

/-- A record is given the members of an object that its fields name. -/
theorem IsObject.document_iff {names : List String} {given : List (String × Bytes)}
    (hobject : IsObject body members) (hdistinct : (members.map Prod.fst).Nodup) :
    Document names body given ↔ given = members.filter (·.1 ∈ names) := by
  obtain ⟨rest, after, hopen, hmembers, hend⟩ := hobject
  constructor
  · rintro ⟨left, hgiven, -⟩
    cases hgiven with
    | object hopen' hmembers' _ =>
        obtain ⟨-, rfl⟩ := List.cons.inj (hopen.symm.trans hopen')
        rw [(hmembers.unique hmembers').1]
    | list hopen' _ _ =>
        -- A list does not start like an object.
        have hbrackets : '\x7b'.toUInt8 ≠ '['.toUInt8 := by decide
        exact absurd (List.cons.inj (hopen.symm.trans hopen')).1 hbrackets
  · rintro rfl
    have hsublist : ((members.filter (·.1 ∈ names)).map Prod.fst).Sublist (members.map Prod.fst) :=
      List.filter_sublist.map Prod.fst
    exact ⟨after, .object hopen hmembers (hsublist.nodup hdistinct), hend⟩

/-- What a record is given is determined by the body. -/
theorem Document.unique {names : List String} {given other : List (String × Bytes)}
    (hgiven : Document names body given) (hother : Document names body other) : given = other := by
  obtain ⟨_, hgiven, -⟩ := hgiven
  obtain ⟨_, hother, -⟩ := hother
  have hbrackets : '\x7b'.toUInt8 ≠ '['.toUInt8 := by decide
  cases hgiven with
  | object hopen hmembers _ =>
      cases hother with
      | object hopen' hmembers' _ =>
          obtain ⟨-, rfl⟩ := List.cons.inj (hopen.symm.trans hopen')
          rw [(hmembers.unique hmembers').1]
      | list hopen' _ _ => exact absurd (List.cons.inj (hopen.symm.trans hopen')).1 hbrackets
  | list hopen hitems _ =>
      cases hother with
      | object hopen' _ _ => exact absurd (List.cons.inj (hopen'.symm.trans hopen)).1 hbrackets
      | list hopen' hitems' _ =>
          obtain ⟨-, rfl⟩ := List.cons.inj (hopen.symm.trans hopen')
          rw [(hitems.unique hitems').1]

theorem says_filter_mem_iff {α : Type} {names : List String} {name : String}
    {read : Bytes → Except Fault (α × Bytes)} {missing value : α} (hname : name ∈ names) :
    Says (members.filter (·.1 ∈ names)) name read missing value ↔
      Says members name read missing value := by
  rw [Says, Says, lookup_filter_mem hname]

/-! ## Members that are texts -/

/-- The value that is due is this text. -/
def IsText (input : Bytes) (text : String) : Prop :=
  ∃ after, readText memberNesting input = .ok (text, after)

theorem IsText.unique {input : Bytes} {text other : String} (htext : IsText input text)
    (hother : IsText input other) : text = other := by
  obtain ⟨after, hread⟩ := htext
  obtain ⟨after', hread'⟩ := hother
  exact (Prod.mk.inj (Except.ok.inj (hread.symm.trans hread'))).1

/-- The member called `name` is this text. -/
def HasText (members : List (String × Bytes)) (name text : String) : Prop :=
  ∃ input, members.lookup name = some input ∧ IsText input text

/-- A reader for a text that may be null finds the text. -/
theorem HasText.says_iff {name text : String} {value? : Option String}
    (htext : HasText members name text) :
    Says members name (readOptional readText memberNesting) none value? ↔
      value? = some text := by
  obtain ⟨input, hlookup, after, hread⟩ := htext
  have hsays : Says members name (readOptional readText memberNesting) none (some text) := by
    simp only [Says, hlookup]
    exact ⟨after, (readOptional_eq_some_iff solid_readText).mpr hread⟩
  constructor
  · exact fun hvalue => hvalue.unique hsays
  · rintro rfl
    exact hsays

/-- The body is an object whose members are exactly these texts, in this order. -/
def IsTextObject (body : Bytes) (texts : List (String × String)) : Prop :=
  ∃ members, IsObject body members ∧
    List.Forall₂ (fun member text => member.1 = text.1 ∧ IsText member.2 text.2) members texts

/-- The texts of an object are determined by the body. -/
theorem IsTextObject.unique {texts others : List (String × String)}
    (htexts : IsTextObject body texts) (hothers : IsTextObject body others) : texts = others := by
  obtain ⟨members, hobject, hmembers⟩ := htexts
  obtain ⟨members', hobject', hmembers'⟩ := hothers
  obtain rfl := hobject.unique hobject'
  clear hobject hobject'
  induction hmembers generalizing others with
  | nil =>
      cases hmembers'
      rfl
  | @cons member text members texts hmember _ ih =>
      cases hmembers' with
      | @cons _ other _ others hother hlater =>
          have hkey : text.1 = other.1 := hmember.1.symm.trans hother.1
          have htext : text.2 = other.2 := hmember.2.unique hother.2
          rw [Prod.ext hkey htext, ih hlater]

end Objects

end FreightPromotion.Json
