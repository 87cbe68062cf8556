import FreightPromotion.CommandLine.Reading
import FreightPromotion.Proofs.Prelude
import Mathlib.Data.List.Nodup

/-!
# How options are spelled

What can be given on a command line has several spellings: the value of an option is attached
to the argument that names it, with an equals sign or, after a letter, without one, or it is the
argument that follows.  `Spells` says which arguments spell which options with which values, in
terms of the arguments alone.

One argument that is read either ends the options or adds what it spells
(`Reading.addArgument_cases`).  A whole command line that is accepted spells, for each verb on the
way, what was read for it, each parameter once (`readFrom_cases`); and if it comes to a promotion,
one verb follows the options before it (`read_promote`).
-/

namespace FreightPromotion.CommandLine

/-! ## Spellings -/

/-- An argument that can stand by itself: only a dash alone starts with a dash. -/
def IsWord (argument : String) : Prop :=
  ∀ rest, argument.toList = '-' :: rest → rest = []

/-- An argument that gives a parameter together with its value, which is the empty text for an
option that takes none. -/
inductive Attaches (parameter : Parameter) : String → String → Prop
  | flag (htakes : parameter.placeholder? = none) (hhelp : parameter ≠ .help) :
      Attaches parameter ("--" ++ parameter.name) ""
  | named (value : String) (htakes : parameter.placeholder?.isSome) :
      Attaches parameter ("--" ++ parameter.name ++ "=" ++ value) value
  | letter {letter : Char} {value : String} (htakes : parameter.placeholder?.isSome)
      (hletter : parameter.letter? = some letter) (hsome : value ≠ "")
      (hplain : value.toList.head? ≠ some '=') :
      Attaches parameter (String.ofList ['-', letter] ++ value) value
  | letterEquals {letter : Char} (value : String) (htakes : parameter.placeholder?.isSome)
      (hletter : parameter.letter? = some letter) :
      Attaches parameter (String.ofList ['-', letter] ++ "=" ++ value) value

/-- An argument that names a parameter whose value is to follow. -/
inductive Names (parameter : Parameter) : String → Prop
  | name (htakes : parameter.placeholder?.isSome) : Names parameter ("--" ++ parameter.name)
  | letter {letter : Char} (htakes : parameter.placeholder?.isSome)
      (hletter : parameter.letter? = some letter) : Names parameter (String.ofList ['-', letter])

/-- What one argument adds for a verb.  The parameters before and after it are those that lack
their value. -/
inductive Adds (usage : Usage) (verb : Verb) :
    Option Parameter → String → List (Parameter × String) → Option Parameter → Prop
  | attached {parameter : Parameter} {argument value : String}
      (hknown : parameter ∈ usage.options verb) (hattaches : Attaches parameter argument value) :
      Adds usage verb none argument [(parameter, value)] none
  | named {parameter : Parameter} {argument : String} (hknown : parameter ∈ usage.options verb)
      (hnames : Names parameter argument) : Adds usage verb none argument [] (some parameter)
  | value {parameter : Parameter} {argument : String} (hword : IsWord argument) :
      Adds usage verb (some parameter) argument [(parameter, argument)] none

/-- Arguments that give parameters of a verb with these values, in this order, if a parameter may
lack its value before them. -/
inductive Spells (usage : Usage) (verb : Verb) :
    Option Parameter → List String → List (Parameter × String) → Prop
  | nil : Spells usage verb none [] []
  | cons {awaited next : Option Parameter} {argument : String} {arguments : List String}
      {added given : List (Parameter × String)}
      (hadds : Adds usage verb awaited argument added next)
      (hspells : Spells usage verb next arguments given) :
      Spells usage verb awaited (argument :: arguments) (added ++ given)

/-! ## What has been read -/

namespace Reading

/-- The values read so far, with that of the option that was read last. -/
def collected (reading : Reading) : List (Parameter × String) :=
  reading.values ++
    match reading.latest with
    | some (parameter, some value) => [(parameter, value)]
    | _ => []

/-- No parameter has two values. -/
def Distinct (reading : Reading) : Prop :=
  (reading.values.map Prod.fst).Nodup

variable {usage : Usage} {verb : Verb} {parameter : Parameter} {argument value : String}
  {reading next : Reading}

theorem notMem_of_has_eq_false (hnone : reading.has parameter = false) :
    parameter ∉ reading.values.map Prod.fst := by
  intro hmem
  obtain ⟨given, hgiven, rfl⟩ := List.mem_map.mp hmem
  simpa using List.any_eq_false.mp hnone given hgiven

theorem add_eq_ok (hadd : reading.add parameter value = .ok next) :
    parameter ∉ reading.values.map Prod.fst ∧
      next = { reading with values := reading.values ++ [(parameter, value)] } := by
  unfold add at hadd
  split at hadd
  · contradiction
  · rename_i hnew
    split at hadd
    · contradiction
    · exact ⟨notMem_of_has_eq_false (Bool.eq_false_iff.mpr hnew), (Except.ok.inj hadd).symm⟩

theorem Distinct.add (hdistinct : reading.Distinct)
    (hadd : reading.add parameter value = .ok next) : next.Distinct := by
  obtain ⟨hnew, rfl⟩ := add_eq_ok hadd
  rw [Distinct, List.map_append]
  exact List.Nodup.append hdistinct (List.nodup_singleton _) (by simpa using hnew)

theorem settle_eq_ok (hsettle : reading.settle = .ok next) :
    reading.awaiting? = none ∧
      next = { values := reading.collected, optionsEnded := reading.optionsEnded } := by
  obtain ⟨values, latest, optionsEnded⟩ := reading
  rcases latest with - | ⟨parameter, - | value⟩
  · obtain rfl := Except.ok.inj hsettle
    exact ⟨rfl, by simp [collected]⟩
  · exact absurd hsettle (by simp [settle])
  · obtain ⟨-, rfl⟩ := add_eq_ok hsettle
    exact ⟨rfl, rfl⟩

theorem Distinct.settle (hdistinct : reading.Distinct) (hsettle : reading.settle = .ok next) :
    next.Distinct := by
  unfold Reading.settle at hsettle
  split at hsettle
  · exact Except.ok.inj hsettle ▸ hdistinct
  · contradiction
  · exact (show Distinct { reading with latest := none } from hdistinct).add hsettle

/-! ## One argument -/

/-- What holds of the readings before and after an argument that adds something. -/
structure Takes (reading : Reading) (added : List (Parameter × String))
    (awaited : Option Parameter) (next : Reading) : Prop where
  collected : next.collected = reading.collected ++ added
  awaiting : next.awaiting? = awaited
  distinct : reading.Distinct → next.Distinct

theorem takes_value (hawaiting : reading.awaiting? = some parameter) :
    reading.Takes [(parameter, value)] none
      { reading with latest := some (parameter, some value) } := by
  obtain ⟨values, latest, optionsEnded⟩ := reading
  rcases latest with - | ⟨parameter, - | given⟩
  · contradiction
  · exact ⟨by simp [collected], rfl, id⟩
  · contradiction

theorem takes_of_settle_add {settled : Reading} (hsettle : reading.settle = .ok settled)
    (hadd : settled.add parameter value = .ok next) :
    reading.awaiting? = none ∧ reading.Takes [(parameter, value)] none next := by
  have hdistinct : reading.Distinct → next.Distinct := fun hdistinct =>
    (hdistinct.settle hsettle).add hadd
  obtain ⟨hawaiting, rfl⟩ := settle_eq_ok hsettle
  obtain ⟨-, rfl⟩ := add_eq_ok hadd
  exact ⟨hawaiting, by simp [collected], rfl, hdistinct⟩

theorem addOption_some_eq_ok (hadd : reading.addOption parameter (some value) = .ok next) :
    reading.awaiting? = none ∧ reading.Takes [(parameter, value)] none next := by
  obtain ⟨settled, hsettle, hadd⟩ := bind_eq_ok_iff.mp hadd
  exact takes_of_settle_add hsettle hadd

theorem addOption_none_eq_ok (hadd : reading.addOption parameter none = .ok next) :
    reading.awaiting? = none ∧ reading.Takes [] (some parameter) next := by
  obtain ⟨settled, hsettle, hadd⟩ := bind_eq_ok_iff.mp hadd
  have hdistinct : reading.Distinct → settled.Distinct := fun hdistinct =>
    hdistinct.settle hsettle
  obtain ⟨hawaiting, rfl⟩ := settle_eq_ok hsettle
  obtain rfl := Except.ok.inj hadd
  exact ⟨hawaiting, by simp [collected], rfl, hdistinct⟩

theorem addFlag_eq_ok (hadd : reading.addFlag verb parameter = .ok next) :
    parameter ≠ .help ∧ reading.awaiting? = none ∧ reading.Takes [(parameter, "")] none next := by
  obtain ⟨settled, hsettle, hadd⟩ := bind_eq_ok_iff.mp hadd
  split at hadd
  · contradiction
  · rename_i hhelp
    exact ⟨hhelp, takes_of_settle_add hsettle hadd⟩

/-- The options that have a letter take a value, apart from the one for help. -/
theorem takes_of_letter {letter : Char} (hletter : parameter.letter? = some letter)
    (hhelp : parameter ≠ .help) : parameter.placeholder?.isSome := by
  cases parameter <;> first | rfl | contradiction

/-- What follows two dashes is a name, perhaps with an equals sign and a value after it. -/
theorem named_spelling (named : List Char) :
    let start := "--" ++ String.ofList (named.takeWhile (· ≠ '='))
    (named.dropWhile (· ≠ '=') = [] ∧ String.ofList ('-' :: '-' :: named) = start) ∨
      ∃ value, named.dropWhile (· ≠ '=') = '=' :: value ∧
        String.ofList ('-' :: '-' :: named) = start ++ "=" ++ String.ofList value := by
  intro start
  have hparts : named.takeWhile (· ≠ '=') ++ named.dropWhile (· ≠ '=') = named :=
    List.takeWhile_append_dropWhile
  have hstart : start.toList = '-' :: '-' :: named.takeWhile (· ≠ '=') := by
    simp only [start, String.toList_append, String.toList_ofList]
    rfl
  cases hrest : named.dropWhile (· ≠ '=') with
  | nil =>
      rw [hrest, List.append_nil] at hparts
      refine .inl ⟨rfl, String.toList_inj.mp ?_⟩
      rw [hstart, hparts, String.toList_ofList]
  | cons sign value =>
      have hsign := List.head?_dropWhile_not (· ≠ '=') named
      rw [hrest] at hsign hparts
      obtain rfl : sign = '=' := by simpa using hsign
      refine .inr ⟨value, rfl, String.toList_inj.mp ?_⟩
      simp only [String.toList_append, String.toList_ofList, hstart, List.append_assoc]
      exact congrArg ('-' :: '-' :: ·) hparts.symm

/-- What is read of an argument that names an option. -/
theorem addNamed_eq_ok {named : List Char} (hadd : reading.addNamed usage verb named = .ok next) :
    ∃ added awaited, Adds usage verb reading.awaiting? (String.ofList ('-' :: '-' :: named)) added
      awaited ∧ reading.Takes added awaited next := by
  unfold addNamed at hadd
  extract_lets name attached at hadd
  split at hadd
  · contradiction
  · rename_i parameter hfind
    have hknown := List.mem_of_find?_eq_some hfind
    have hname : parameter.name = String.ofList (named.takeWhile (· ≠ '=')) :=
      of_decide_eq_true (List.find?_some hfind :)
    rcases named_spelling named with ⟨hrest, hspelling⟩ | ⟨value, hrest, hspelling⟩
    · have hattached : attached = none := by simp only [attached, hrest]
      rw [hspelling, ← hname]
      rw [hattached] at hadd
      split at hadd
      · rename_i htakes
        obtain ⟨hawaiting, hnext⟩ := addOption_none_eq_ok hadd
        exact ⟨_, _, hawaiting ▸ .named hknown (.name (htakes ▸ rfl)), hnext⟩
      · contradiction
      · rename_i htakes _
        obtain ⟨hhelp, hawaiting, hnext⟩ := addFlag_eq_ok hadd
        exact ⟨_, _, hawaiting ▸ .attached hknown (.flag htakes hhelp), hnext⟩
    · have hattached : attached = some (String.ofList value) := by simp only [attached, hrest]
      rw [hspelling, ← hname]
      rw [hattached] at hadd
      split at hadd
      · rename_i htakes
        obtain ⟨hawaiting, hnext⟩ := addOption_some_eq_ok hadd
        exact ⟨_, _, hawaiting ▸ .attached hknown (.named _ (htakes ▸ rfl)), hnext⟩
      · contradiction
      · contradiction

theorem attachedValue?_eq_none {letters : List Char} (hnone : attachedValue? letters = none) :
    letters = [] := by
  unfold attachedValue? at hnone
  split at hnone
  · rfl
  · contradiction
  · contradiction

theorem attaches_of_letter {letter : Char} {letters : List Char}
    (htakes : parameter.placeholder?.isSome) (hletter : parameter.letter? = some letter)
    (hattached : attachedValue? letters = some value) :
    Attaches parameter (String.ofList ('-' :: letter :: letters)) value := by
  unfold attachedValue? at hattached
  split at hattached
  · contradiction
  · rename_i rest
    obtain rfl := Option.some.inj hattached
    have hspelling : String.ofList ('-' :: letter :: '=' :: rest) =
        String.ofList ['-', letter] ++ "=" ++ String.ofList rest :=
      String.toList_inj.mp (by simp)
    exact hspelling ▸ .letterEquals _ htakes hletter
  · rename_i hsome hplain
    obtain rfl := Option.some.inj hattached
    have hspelling : String.ofList ('-' :: letter :: letters) =
        String.ofList ['-', letter] ++ String.ofList letters :=
      String.toList_inj.mp (by simp)
    refine hspelling ▸ .letter htakes hletter ?_ ?_
    · rw [Ne, String.ofList_eq_empty_iff]
      exact hsome
    · rw [String.toList_ofList]
      intro hhead
      exact hplain _ (List.cons_head?_tail hhead).symm

/-- What is read of an argument that starts with a letter. -/
theorem addLetters_eq_ok {letter : Char} {letters : List Char}
    (hadd : reading.addLetters usage verb (letter :: letters) = .ok next) :
    ∃ added awaited, Adds usage verb reading.awaiting? (String.ofList ('-' :: letter :: letters))
      added awaited ∧ reading.Takes added awaited next := by
  unfold addLetters at hadd
  split at hadd
  · contradiction
  · rename_i parameter hfind
    have hknown := List.mem_of_find?_eq_some hfind
    have hletter : parameter.letter? = some letter := by simpa using List.find?_some hfind
    split at hadd
    · rename_i htakes
      cases hattached : attachedValue? letters with
      | none =>
          obtain rfl := attachedValue?_eq_none hattached
          obtain ⟨hawaiting, hnext⟩ := addOption_none_eq_ok hadd
          exact ⟨_, _, hawaiting ▸ .named hknown (.letter (htakes ▸ rfl) hletter), hnext⟩
      | some value =>
          have hattaches := attaches_of_letter (htakes ▸ rfl) hletter hattached
          rw [hattached] at hadd
          obtain ⟨hawaiting, hnext⟩ := addOption_some_eq_ok hadd
          exact ⟨_, _, hawaiting ▸ .attached hknown hattaches, hnext⟩
    · obtain ⟨_, hflag, -⟩ := bind_eq_ok_iff.mp hadd
      have htakes := takes_of_letter hletter (addFlag_eq_ok hflag).1
      simp_all

/-- What is read of one argument where operands have no place. -/
theorem addArgument_cases (hverb : verb.operand? = none)
    (hadd : reading.addArgument usage verb argument = .ok next) :
    reading.optionsEnded = false ∧
      ((argument = "--" ∧ next = { reading with optionsEnded := true }) ∨
        ∃ added awaited, Adds usage verb reading.awaiting? argument added awaited ∧
          reading.Takes added awaited next) := by
  have hoperand : reading.addOperand verb argument ≠ .ok next := by
    rw [addOperand, hverb]
    exact nofun
  unfold addArgument at hadd
  split at hadd
  · exact absurd hadd hoperand
  · rename_i hended
    refine ⟨Bool.eq_false_iff.mpr hended, ?_⟩
    split at hadd
    · rename_i hdashes
      exact .inl ⟨String.toList_inj.mp hdashes, (Except.ok.inj hadd).symm⟩
    · rename_i named _ hnamed
      rw [← String.ofList_toList (s := argument), hnamed]
      exact .inr (addNamed_eq_ok hadd)
    · rename_i letter letters _ hletters
      rw [← String.ofList_toList (s := argument), hletters]
      exact .inr (addLetters_eq_ok hadd)
    · rename_i hplain
      have hword : IsWord argument := by
        intro rest hrest
        cases rest with
        | nil => rfl
        | cons letter letters => exact (hplain letter letters hrest).elim
      split at hadd
      · rename_i parameter hawaiting
        obtain rfl := Except.ok.inj hadd
        exact .inr ⟨_, _, hawaiting ▸ .value hword, takes_value hawaiting⟩
      · exact absurd hadd hoperand

theorem next?_eq_some {follower : Verb} (hnext : reading.next? verb argument = some follower) :
    reading.awaiting? = none ∧ verb.follower? argument = some follower := by
  unfold next? at hnext
  split at hnext
  · contradiction
  · rename_i hplain
    rw [Bool.or_eq_true, not_or, Option.not_isSome_iff_eq_none] at hplain
    exact ⟨hplain.2, hnext⟩

/-- The end of what is read for a verb. -/
theorem finish_eq_ok (hfinish : reading.finish usage = .ok next) :
    reading.awaiting? = none ∧ next.values = reading.collected ∧
      (reading.Distinct → next.Distinct) := by
  obtain ⟨settled, hsettle, hfinish⟩ := bind_eq_ok_iff.mp hfinish
  split at hfinish
  · contradiction
  · obtain rfl := Except.ok.inj hfinish
    have hdistinct : reading.Distinct → settled.Distinct := fun hdistinct =>
      hdistinct.settle hsettle
    obtain ⟨hawaiting, rfl⟩ := settle_eq_ok hsettle
    exact ⟨hawaiting, rfl, hdistinct⟩

end Reading

/-! ## All arguments -/

section Arguments

variable {usage : Usage} {verb : Verb} {reading : Reading} {words : List String} {line : Line}

/-- How a reading that is accepted goes on: to the end of the arguments, perhaps with two dashes
there. -/
def Reading.EndsIn (reading : Reading) (usage : Usage) (verb : Verb) (words : List String)
    (command : Command) : Prop :=
  ∃ rest dashes given, ∃ last : Reading, words = rest ++ dashes ∧ (dashes = [] ∨ dashes = ["--"]) ∧
    Spells usage verb reading.awaiting? rest given ∧ last.values = reading.collected ++ given ∧
    (reading.Distinct → last.Distinct) ∧ last.command usage verb = .ok command

/-- How a reading that is accepted goes on: with options before a word that leads to another
verb. -/
def Reading.LeadsOn (reading : Reading) (usage : Usage) (verb : Verb) (words : List String)
    (command : Command) : Prop :=
  ∃ before word rest given follower more, words = before ++ word :: rest ∧
    Spells usage verb reading.awaiting? before given ∧ verb.follower? word = some follower ∧
    readFrom usage follower {} rest = .ok more ∧ more.command = command

theorem readFrom_nil (hread : readFrom usage verb reading [] = .ok line) :
    reading.awaiting? = none ∧ ∃ last : Reading, last.values = reading.collected ∧
      (reading.Distinct → last.Distinct) ∧ last.command usage verb = .ok line.command := by
  unfold readFrom at hread
  obtain ⟨last, hfinish, hread⟩ := bind_eq_ok_iff.mp hread
  obtain ⟨command, hcommand, hread⟩ := bind_eq_ok_iff.mp hread
  obtain rfl := Except.ok.inj hread
  obtain ⟨hawaiting, hvalues, hdistinct⟩ := Reading.finish_eq_ok hfinish
  exact ⟨hawaiting, last, hvalues, hdistinct, hcommand⟩

/-- Whether two dashes end the arguments makes no difference. -/
theorem Reading.endsIn_of_readFrom_nil {dashes : List String} {ended : Bool}
    (hdashes : dashes = [] ∨ dashes = ["--"])
    (hread : readFrom usage verb { reading with optionsEnded := ended } [] = .ok line) :
    reading.EndsIn usage verb dashes line.command := by
  obtain ⟨hawaiting, last, hvalues, hdistinct, hcommand⟩ := readFrom_nil hread
  have hspells : Spells usage verb reading.awaiting? [] [] :=
    (show reading.awaiting? = none from hawaiting) ▸ .nil
  exact ⟨[], dashes, [], last, rfl, hdashes, hspells, hvalues.trans (List.append_nil _).symm,
    hdistinct, hcommand⟩

/-- Nothing follows the end of the options where operands have no place. -/
theorem readFrom_ended (hverb : verb.operand? = none) (hended : reading.optionsEnded = true)
    (hread : readFrom usage verb reading words = .ok line) : words = [] := by
  cases words with
  | nil => rfl
  | cons argument arguments =>
      have hnext : reading.next? verb argument = none := by simp [Reading.next?, hended]
      unfold readFrom at hread
      rw [hnext] at hread
      obtain ⟨next, hadd, -⟩ := bind_eq_ok_iff.mp hread
      have hopen := (Reading.addArgument_cases hverb hadd).1
      rw [hended] at hopen
      contradiction

/-- What is read for a verb without operands. -/
theorem readFrom_cases (hverb : verb.operand? = none)
    (hread : readFrom usage verb reading words = .ok line) :
    reading.EndsIn usage verb words line.command ∨
      reading.LeadsOn usage verb words line.command := by
  -- The reading is general, so that what it has collected stays before what the rest gives.
  induction words generalizing reading line with
  | nil => exact .inl (Reading.endsIn_of_readFrom_nil (.inl rfl) hread)
  | cons argument arguments ih =>
      unfold readFrom at hread
      split at hread
      · rename_i follower hnext
        obtain ⟨hawaiting, hfollower⟩ := Reading.next?_eq_some hnext
        split at hread
        · contradiction
        · obtain ⟨more, hmore, hread⟩ := bind_eq_ok_iff.mp hread
          obtain ⟨last, -, hread⟩ := bind_eq_ok_iff.mp hread
          obtain rfl := Except.ok.inj hread
          exact .inr ⟨[], argument, arguments, [], follower, more, rfl, hawaiting ▸ .nil,
            hfollower, hmore, rfl⟩
      · obtain ⟨next, hadd, hread⟩ := bind_eq_ok_iff.mp hread
        rcases (Reading.addArgument_cases hverb hadd).2 with
          ⟨rfl, rfl⟩ | ⟨added, awaited, hadds, htakes⟩
        · obtain rfl := readFrom_ended hverb rfl hread
          exact .inl (Reading.endsIn_of_readFrom_nil (.inr rfl) hread)
        · obtain rfl := htakes.awaiting
          rcases ih hread with
            ⟨rest, dashes, given, last, rfl, hdashes, hspells, hvalues, hdistinct, hcommand⟩ |
            ⟨before, word, rest, given, follower, more, rfl, hspells, hleads⟩
          · refine .inl ⟨argument :: rest, dashes, added ++ given, last, rfl, hdashes,
              .cons hadds hspells, ?_, hdistinct ∘ htakes.distinct, hcommand⟩
            rw [hvalues, htakes.collected, List.append_assoc]
          · exact .inr ⟨argument :: before, word, rest, added ++ given, follower, more, rfl,
              .cons hadds hspells, hleads⟩

/-! ## Promotions -/

variable {arguments : PromoteArguments}

theorem Reading.command_eq_promote
    (hcommand : reading.command usage verb = .ok (.promote arguments)) :
    verb = .promote ∧ reading.check .promote = .ok () ∧ arguments = reading.promoteArguments := by
  obtain ⟨⟨⟩, hcheck, hcommand⟩ := bind_eq_ok_iff.mp hcommand
  cases verb with
  | promote => exact ⟨rfl, hcheck, (Command.promote.inj (Except.ok.inj hcommand)).symm⟩
  | _ => cases hcommand

theorem Verb.mem_followers_of_follower? {word : String} {follower : Verb}
    (hfollower : verb.follower? word = some follower) : (word, follower) ∈ verb.followers := by
  obtain ⟨before, after, hfollowers, -⟩ := List.lookup_eq_some_iff.mp hfollower
  simp [hfollowers]

/-- The verbs that words lead to after the first one. -/
theorem Verb.later_of_follower? {word : String} {follower : Verb} (hstart : verb ≠ .start)
    (hfollower : verb.follower? word = some follower) :
    follower ≠ .start ∧ follower ≠ .promote := by
  have hmem := Verb.mem_followers_of_follower? hfollower
  cases verb with
  | start => contradiction
  | config =>
      simp only [Verb.followers, List.mem_cons, Prod.mk.injEq, List.not_mem_nil, or_false] at hmem
      rcases hmem with ⟨-, rfl⟩ | ⟨-, rfl⟩ | ⟨-, rfl⟩ | ⟨-, rfl⟩ <;> decide
  | _ => contradiction

/-- Only the verb for it comes to a promotion. -/
theorem not_promote_of_readFrom (hstart : verb ≠ .start) (hverb : verb ≠ .promote)
    (hread : readFrom usage verb reading words = .ok line) : line.command ≠ .promote arguments := by
  intro hpromote
  -- No word leads back to the first verb, nor from any other to this one.
  induction words generalizing verb reading line with
  | nil =>
      obtain ⟨-, last, -, -, hcommand⟩ := readFrom_nil hread
      rw [hpromote] at hcommand
      exact hverb (Reading.command_eq_promote hcommand).1
  | cons argument arguments ih =>
      unfold readFrom at hread
      split at hread
      · rename_i follower hnext
        obtain ⟨hlater, hother⟩ := Verb.later_of_follower? hstart (Reading.next?_eq_some hnext).2
        split at hread
        · contradiction
        · obtain ⟨more, hmore, hread⟩ := bind_eq_ok_iff.mp hread
          obtain ⟨last, -, hread⟩ := bind_eq_ok_iff.mp hread
          obtain rfl := Except.ok.inj hread
          exact ih hlater hother hmore hpromote
      · obtain ⟨next, -, hread⟩ := bind_eq_ok_iff.mp hread
        exact ih hstart hverb hread hpromote

/-- A command line that comes to a promotion: options, the verb and options, perhaps with two
dashes at the end. -/
theorem read_promote (hread : read usage words = .ok line)
    (hpromote : line.command = .promote arguments) :
    ∃ before rest dashes outer, ∃ last : Reading,
      words = before ++ "promote" :: (rest ++ dashes) ∧ (dashes = [] ∨ dashes = ["--"]) ∧
        Spells usage .start none before outer ∧ Spells usage .promote none rest last.values ∧
        last.Distinct ∧ last.check .promote = .ok () ∧ arguments = last.promoteArguments := by
  rcases readFrom_cases rfl hread with
    ⟨rest, dashes, given, last, rfl, hdashes, hspells, hvalues, hdistinct, hcommand⟩ |
    ⟨before, word, rest, outer, follower, more, rfl, houter, hfollower, hmore, hcommand⟩
  · rw [hpromote] at hcommand
    exact absurd (Reading.command_eq_promote hcommand).1 (by decide)
  · rw [hpromote] at hcommand
    have hmem := Verb.mem_followers_of_follower? hfollower
    obtain ⟨rfl, rfl⟩ : word = "promote" ∧ follower = .promote := by
      simp only [Verb.followers, List.mem_cons, Prod.mk.injEq, List.not_mem_nil, or_false] at hmem
      rcases hmem with hpromotes | ⟨-, rfl⟩ | ⟨-, rfl⟩
      · exact hpromotes
      · exact absurd hcommand (not_promote_of_readFrom (by decide) (by decide) hmore)
      · exact absurd hcommand (not_promote_of_readFrom (by decide) (by decide) hmore)
    rcases readFrom_cases rfl hmore with
      ⟨rest, dashes, given, last, rfl, hdashes, hspells, hvalues, hdistinct, hpromotes⟩ |
      ⟨_, _, _, _, _, _, _, _, hnone, _⟩
    · rw [hcommand] at hpromotes
      obtain ⟨-, hcheck, harguments⟩ := Reading.command_eq_promote hpromotes
      obtain rfl : last.values = given := hvalues
      exact ⟨before, rest, dashes, outer, last, rfl, hdashes, houter, hspells,
        hdistinct List.nodup_nil, hcheck, harguments⟩
    · contradiction

end Arguments

end FreightPromotion.CommandLine
