import FreightPromotion.Client
import Mathlib

/-!
# Addresses without slashes at their end

The slashes at the end of an address do not count: two addresses that differ in nothing else are
trimmed to the same text (`trimSlashes_append_slashes`), and what is left does not end in a slash
(`getLast?_trimSlashes`).  Nothing is left of an address exactly if it consists of slashes
(`trimSlashes_eq_empty_iff`).

Below one server the addresses of the two operations differ (`Client.address_inj`).  The server is
what stands before the path there, with the user who is named in it (`Client.read_address`).
-/

namespace FreightPromotion

/-- A text of so many slashes. -/
def slashes (count : Nat) : String :=
  String.ofList (List.replicate count '/')

@[simp]
theorem toList_slashes (count : Nat) : (slashes count).toList = List.replicate count '/' :=
  String.toList_ofList

theorem toList_trimSlashes (text : String) :
    (trimSlashes text).toList = text.toList.rdropWhile (· = '/') :=
  String.toList_ofList

/-- What is trimmed off a text are slashes. -/
theorem exists_slashes (text : String) : ∃ count, text = trimSlashes text ++ slashes count := by
  have hslashes : ∀ character ∈ text.toList.rtakeWhile (· = '/'), character = '/' := by
    intro character hmem
    simpa using List.mem_rtakeWhile_imp hmem
  refine ⟨(text.toList.rtakeWhile (· = '/')).length, String.toList_inj.mp ?_⟩
  rw [String.toList_append, toList_trimSlashes, toList_slashes,
    ← List.eq_replicate_of_mem hslashes, List.rdropWhile_append_rtakeWhile]

/-- What is left does not end in a slash. -/
theorem getLast?_trimSlashes (text : String) :
    (trimSlashes text).toList.getLast? ≠ some '/' := by
  rw [toList_trimSlashes]
  intro hlast
  have hne : text.toList.rdropWhile (· = '/') ≠ [] := by
    intro hnil
    rw [hnil] at hlast
    contradiction
  have hkept := List.rdropWhile_last_not (· = '/') text.toList hne
  rw [(List.getLast_eq_iff_getLast?_eq_some hne).mpr hlast] at hkept
  exact hkept (decide_eq_true rfl)

theorem trimSlashes_append_slashes (text : String) (count : Nat) :
    trimSlashes (text ++ slashes count) = trimSlashes text := by
  refine String.toList_inj.mp ?_
  rw [toList_trimSlashes, toList_trimSlashes, String.toList_append, toList_slashes]
  induction count with
  | zero => simp
  | succ count ih =>
      rw [List.replicate_succ', ← List.append_assoc,
        List.rdropWhile_concat_pos _ _ _ (by simp), ih]

/-- A text that does not end in a slash stays as it is. -/
theorem trimSlashes_of_getLast?_ne {text : String} (hlast : text.toList.getLast? ≠ some '/') :
    trimSlashes text = text := by
  refine String.toList_inj.mp ?_
  rw [toList_trimSlashes, List.rdropWhile_eq_self_iff]
  intro hne hslash
  exact hlast ((List.getLast_eq_iff_getLast?_eq_some hne).mp (by simpa using hslash))

@[simp]
theorem trimSlashes_trimSlashes (text : String) :
    trimSlashes (trimSlashes text) = trimSlashes text :=
  trimSlashes_of_getLast?_ne (getLast?_trimSlashes text)

/-- Trimming splits a text into what does not end in a slash and slashes. -/
theorem trimSlashes_eq_iff {text base : String} :
    trimSlashes text = base ↔
      base.toList.getLast? ≠ some '/' ∧ ∃ count, text = base ++ slashes count := by
  constructor
  · rintro rfl
    exact ⟨getLast?_trimSlashes text, exists_slashes text⟩
  · rintro ⟨hlast, count, rfl⟩
    rw [trimSlashes_append_slashes, trimSlashes_of_getLast?_ne hlast]

/-- Nothing is left of slashes only. -/
theorem trimSlashes_eq_empty_iff {text : String} :
    trimSlashes text = "" ↔ ∃ count, text = slashes count := by
  simp [trimSlashes_eq_iff]

theorem Operation.label_injective {operation other : Operation}
    (hlabel : operation.label = other.label) : operation = other := by
  cases operation <;> cases other
  case promoteStage.promoteStage | promoteSubscribers.promoteSubscribers => rfl
  all_goals exact absurd hlabel (by decide)

/-- The address tells the operations of a client apart. -/
theorem Client.address_inj {client : Client} {operation other : Operation} :
    client.address operation = client.address other ↔ operation = other := by
  constructor
  · intro haddress
    exact Operation.label_injective ((String.append_right_inj _).mp haddress)
  · rintro rfl
    rfl

/-! ## Reading the address of a server -/

/-- The path of an operation below the address of the server. -/
def Operation.path (operation : Operation) : String :=
  servicePath ++ "/" ++ operation.label

namespace Http.Url

/-- A text without blanks and controls is clean. -/
theorem clean_of_visible {text : List Char}
    (hvisible : ∀ character ∈ text, 0x20 < character.toNat) : clean text = text := by
  have hkept (texts : List Char) (htexts : ∀ character ∈ texts, 0x20 < character.toNat) :
      texts.dropWhile (fun character => decide (character.toNat ≤ 0x20)) = texts := by
    cases texts with
    | nil => rfl
    | cons first rest =>
        have hfirst : 0x20 < first.toNat := htexts first List.mem_cons_self
        exact List.dropWhile_cons_of_neg (by simpa using hfirst)
  simp only [clean, hkept text hvisible]
  rw [hkept text.reverse (by simpa using hvisible), List.reverse_reverse, List.filter_eq_self]
  intro character hmem
  have hcharacter := hvisible character hmem
  refine decide_eq_true fun hdropped => ?_
  simp only [List.mem_cons, List.not_mem_nil, or_false] at hdropped
  rcases hdropped with rfl | rfl | rfl <;> exact absurd hcharacter (by decide)

/-- A text that can stand before the path: it can be seen, and the path does not start within it. -/
structure IsAuthority (text : List Char) : Prop where
  nonempty : text ≠ []
  visible : ∀ character ∈ text, 0x20 < character.toNat
  unbroken : ∀ character ∈ text, endsAuthority true character = false

variable {text : List Char}

theorem IsAuthority.of_all (hsome : text ≠ [])
    (hall : text.all fun character =>
      decide (0x20 < character.toNat) && !endsAuthority true character) : IsAuthority text := by
  simp only [List.all_eq_true, Bool.and_eq_true, decide_eq_true_eq, Bool.not_eq_true'] at hall
  exact ⟨hsome, fun character hmem => (hall character hmem).1,
    fun character hmem => (hall character hmem).2⟩

theorem IsAuthority.dropWhile_slashes (htext : IsAuthority text) (path : List Char) :
    ("//".toList ++ (text ++ path)).dropWhile (· ∈ separators true) = text ++ path := by
  obtain ⟨first, rest, rfl⟩ := List.exists_cons_of_ne_nil htext.nonempty
  have hfirst : first ∉ separators true := by
    have hends := htext.unbroken first List.mem_cons_self
    simp only [endsAuthority, Bool.or_eq_false_iff, decide_eq_false_iff_not] at hends
    exact hends.1.1
  rw [List.dropWhile_append_of_pos (by simp [separators]), List.cons_append,
    List.dropWhile_cons_of_neg (by simpa using hfirst)]

/-- What stands before the path of an operation ends where the path starts. -/
theorem IsAuthority.parts (htext : IsAuthority text) (operation : Operation) :
    let all := text ++ operation.path.toList
    all.takeWhile (!endsAuthority true ·) = text ∧
      located (all.dropWhile (!endsAuthority true ·)) = (operation.path.toList, none, none) := by
  have hwhole : ∀ character ∈ text, (!endsAuthority true character) = true := by
    simpa using htext.unbroken
  have hpath : operation.path.toList.takeWhile (!endsAuthority true ·) = [] ∧
      located (operation.path.toList.dropWhile (!endsAuthority true ·)) =
        (operation.path.toList, none, none) := by
    cases operation <;> decide +kernel
  refine ⟨?_, ?_⟩
  · rw [List.takeWhile_append_of_pos hwhole, hpath.1, List.append_nil]
  · rw [List.dropWhile_append_of_pos hwhole, hpath.2]

theorem normalPath_path (operation : Operation) :
    normalPath (separators true) operation.path.toList = operation.path.toList := by
  cases operation <;> decide +kernel

/-- How the address of a server starts, by whether its connections are protected. -/
def scheme (secure : Bool) : String :=
  if secure then "https" else "http"

/-- The port of a server whose address names none. -/
def usualPort (secure : Bool) : Nat :=
  if secure then 443 else 80

/-- The address of an operation of a server is read as what stands before its path. -/
theorem read_web {authority : Authority} (secure : Bool) (htext : IsAuthority text)
    (hread : readAuthority Host.read text = .ok authority) (operation : Operation) :
    read (scheme secure ++ "://" ++ String.ofList text ++ operation.path) = .ok
      { secure
        host := authority.host
        port := authority.port.getD (usualPort secure)
        target := operation.path
        user := User.read authority.user } := by
  have htoList : (scheme secure ++ "://" ++ String.ofList text ++ operation.path).toList =
      (scheme secure ++ "://").toList ++ (text ++ operation.path.toList) := by
    simp only [String.toList_append, String.toList_ofList, List.append_assoc]
  have hclean : clean ((scheme secure ++ "://").toList ++ (text ++ operation.path.toList)) =
      (scheme secure ++ "://").toList ++ (text ++ operation.path.toList) := by
    have hpath : operation.path.toList.all (0x20 < ·.toNat) = true := by
      cases operation <;> decide +kernel
    have hstart : (scheme secure ++ "://").toList.all (0x20 < ·.toNat) = true := by
      cases secure <;> decide
    refine clean_of_visible ?_
    rw [List.forall_mem_append, List.forall_mem_append]
    simp only [List.all_eq_true, decide_eq_true_eq] at hpath hstart
    exact ⟨hstart, htext.visible, hpath⟩
  have hscheme : scheme? ((scheme secure ++ "://").toList ++ (text ++ operation.path.toList)) =
      some (scheme secure, "//".toList ++ (text ++ operation.path.toList)) := by
    cases secure <;> rfl
  have hknown : knownSchemes.lookup (scheme secure) = some (usualPort secure) := by
    cases secure <;> decide
  have hfile : scheme secure ≠ "file" := by
    cases secure <;> decide
  have hweb : scheme secure = "http" ∨ scheme secure = "https" := by
    cases secure <;> decide
  have hsecure : decide (scheme secure = "https") = secure := by
    cases secure <;> decide
  obtain ⟨hfront, hlocated⟩ := htext.parts operation
  simp only [read, htoList, hclean, hscheme, hknown, hfile, if_false, readKnown,
    htext.dropWhile_slashes, hfront, hread, hlocated, normalPath_path]
  simp [queryText, hweb, hsecure, bind, Except.bind, pure, Except.pure]

end Http.Url

theorem Client.read_address {client : Client} {text : List Char} {authority : Http.Url.Authority}
    (secure : Bool)
    (hbase : client.baseAddress = Http.Url.scheme secure ++ "://" ++ String.ofList text)
    (htext : Http.Url.IsAuthority text)
    (hread : Http.Url.readAuthority Http.Host.read text = .ok authority) (operation : Operation) :
    Http.Url.read (client.address operation) = .ok
      { secure
        host := authority.host
        port := authority.port.getD (Http.Url.usualPort secure)
        target := operation.path
        user := Http.User.read authority.user } := by
  rw [Client.address, hbase, String.append_assoc, String.append_assoc]
  exact Http.Url.read_web secure htext hread operation

end FreightPromotion
