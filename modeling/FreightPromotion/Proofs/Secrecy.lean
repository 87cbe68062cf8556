import FreightPromotion.Proofs.Changes
import FreightPromotion.Proofs.Files.Twins

/-!
# The token stays hidden

Two runs of the same commands start in trees that differ in the settings only, and in
these only in the token.  The runs are compared step by step.  `Traced.anonymous`
leaves out of a computation what may show the token, which is the authorization of
its messages, and nothing else; it commutes with sequencing (`Traced.anonymous_bind`),
so that it is enough to compare the one place where a message is built
(`Client.Alike.post`).

The trees stay counterparts, because a save takes the same course in both
(`Counterparts.update`).  So in every turn the outputs, the results and the events are
the same, and each run keeps its token (`token_stays_hidden`).
-/

namespace FreightPromotion

open FreightPromotion.Files (Tree)
open FreightPromotion.Files.Tree (Twins)

/-! ## Steps without authorization -/

/-- The message without the token. -/
def Http.Post.anonymous (message : Http.Post) : Http.Post :=
  { message with tokenAuthorization := none }

/-- The step without the token of its message. -/
def Step.anonymous : Step → Step
  | .post message => .post message.anonymous
  | step => step

namespace Traced

variable {α β : Type}

/-- The computation without the tokens of its messages. -/
def anonymous (traced : Traced α) : Traced α where
  steps := traced.steps.map Step.anonymous
  value := traced.value

@[simp]
theorem anonymous_bind (first : Traced α) (next : α → Traced β) :
    (first >>= next).anonymous = first.anonymous >>= fun value => (next value).anonymous := by
  show Traced.mk _ _ = Traced.mk _ _
  rw [steps_bind, List.map_append]
  rfl

theorem anonymous_eq_iff {first second : Traced α} :
    second.anonymous = first.anonymous ↔
      second.steps.map Step.anonymous = first.steps.map Step.anonymous ∧
        second.value = first.value := by
  rw [anonymous, anonymous, Traced.mk.injEq]

/-- Events do not show tokens. -/
theorem events_of_anonymous {first second : List Step}
    (hsame : second.map Step.anonymous = first.map Step.anonymous) :
    events second = events first := by
  have hevents : ∀ steps : List Step, events (steps.map Step.anonymous) = events steps := by
    intro steps
    rw [events, List.filterMap_map]
    refine List.filterMap_congr fun step _ => ?_
    cases step <;> rfl
  rw [← hevents second, hsame, hevents]

theorem posts_of_anonymous {first second : List Step}
    (hsame : second.map Step.anonymous = first.map Step.anonymous) :
    (posts second).map Http.Post.anonymous = (posts first).map Http.Post.anonymous := by
  have hposts : ∀ steps : List Step,
      posts (steps.map Step.anonymous) = (posts steps).map Http.Post.anonymous := by
    intro steps
    rw [posts, List.filterMap_map, posts, List.map_filterMap]
    refine List.filterMap_congr fun step _ => ?_
    cases step <;> rfl
  rw [← hposts second, hsame, hposts]

end Traced

/-! ## Clients with different tokens -/

/-- The clients reach the same server by the same route, and their tokens fit into a header. -/
structure Client.Alike (first second : Client) : Prop where
  baseAddress : second.baseAddress = first.baseAddress
  insecureSkipTlsVerify : second.insecureSkipTlsVerify = first.insecureSkipTlsVerify
  header : first.authorization.all Client.isHeaderText = true
  otherHeader : second.authorization.all Client.isHeaderText = true

namespace Client.Alike

variable {first second : Client} (network : Http.Network)

theorem address (halike : first.Alike second) (operation : Operation) :
    second.address operation = first.address operation := by
  rw [Client.address, Client.address, halike.baseAddress]

theorem route (halike : first.Alike second) (url : Http.Url) :
    second.route url = first.route url := by
  rw [Client.route, Client.route, halike.insecureSkipTlsVerify]

/-- Both clients can build the message, or neither. -/
theorem message (halike : first.Alike second) (operation : Operation) (body : String) :
    (∃ cause, first.message operation body = .error cause ∧
        second.message operation body = .error cause) ∨
      ∃ url, first.message operation body = .ok (url, first.messageTo operation body url) ∧
        second.message operation body = .ok (url, second.messageTo operation body url) := by
  have haddress := halike.address operation
  cases hread : Http.Url.read (first.address operation) with
  | error fault =>
      have hcause : second.addressCause fault = first.addressCause fault := by
        cases fault <;> simp only [Client.addressCause, halike.header, halike.otherHeader]
      refine .inl ⟨first.addressCause fault, ?_, ?_⟩
      · simp only [Client.message, hread]
      · simp only [Client.message, haddress, hread, hcause]
  | ok url =>
      refine .inr ⟨url, Client.message_eq_ok_iff.mpr ⟨hread, halike.header, rfl⟩,
        Client.message_eq_ok_iff.mpr ⟨?_, halike.otherHeader, rfl⟩⟩
      rw [haddress, hread]

/-- An exchange shows the token in the message and nowhere else. -/
theorem post (halike : first.Alike second) (deadline : Deadline) (operation : Operation)
    (body : String) :
    (second.post network deadline operation body).anonymous =
      (first.post network deadline operation body).anonymous := by
  have hevent : second.sendingEvent operation = first.sendingEvent operation := by
    rw [Client.sendingEvent, Client.sendingEvent, halike.address]
  cases hexpired : deadline.isExpired with
  | true => simp [Client.post, hexpired]
  | false =>
      rcases halike.message operation body with ⟨cause, hfirst, hsecond⟩ | ⟨url, hfirst, hsecond⟩
      · simp only [Client.post, hexpired, hevent, hfirst, hsecond]
      · have hstep : (Traced.step (.post (second.messageTo operation body url))).anonymous =
            (Traced.step (.post (first.messageTo operation body url))).anonymous := by
          rw [Client.messageTo, Client.messageTo, halike.address]
          rfl
        simp only [Client.post, hexpired, hevent, hfirst, hsecond, Bool.false_eq_true, if_false,
          halike.route]
        -- The message is sent unless the connection is refused.
        cases network (first.route url) with
        | refused => rfl
        | closed | silent | reply reply => simp only [Traced.anonymous_bind, hstep]

theorem promoteToStage (halike : first.Alike second) (deadline : Deadline) (project : String)
    (freight : Freight) (stage : String) :
    ((second.service network).promoteToStage deadline project freight stage).anonymous =
      ((first.service network).promoteToStage deadline project freight stage).anonymous := by
  simp only [Client.service, Traced.anonymous_bind, halike.post network]

theorem promoteToSubscribers (halike : first.Alike second) (deadline : Deadline)
    (project : String) (freight : Freight) (stage : String) :
    ((second.service network).promoteToSubscribers deadline project freight stage).anonymous =
      ((first.service network).promoteToSubscribers deadline project freight stage).anonymous := by
  simp only [Client.service, Traced.anonymous_bind, halike.post network]

theorem submit (halike : first.Alike second) (request : Request) (deadline : Deadline) :
    (request.submit deadline (second.service network)).anonymous =
      (request.submit deadline (first.service network)).anonymous := by
  unfold Request.submit
  cases request.selector with
  | stage stage => simp only [Traced.anonymous_bind, halike.promoteToStage network]
  | subscribersOf stage => simp only [Traced.anonymous_bind, halike.promoteToSubscribers network]

/-- A promotion shows the token in its message and nowhere else. -/
theorem promote (halike : first.Alike second) (deadline : Deadline) (options : Options)
    (sink : Sink) :
    (promote deadline options (pure (.ok (second.service network))) sink).anonymous =
      (promote deadline options (pure (.ok (first.service network))) sink).anonymous := by
  cases hvalidate : options.validate with
  | error violations =>
      rw [promote_of_violations deadline sink hvalidate,
        promote_of_violations deadline sink hvalidate]
  | ok request =>
      obtain ⟨hsteps, hvalue⟩ := Traced.anonymous_eq_iff.mp (halike.submit network request deadline)
      rw [promote_of_reached deadline sink hvalidate rfl,
        promote_of_reached deadline sink hvalidate rfl, hvalue]
      refine Traced.anonymous_eq_iff.mpr ⟨?_, rfl⟩
      simp only [List.map_append, hsteps, Traced.steps_pure]

end Client.Alike

/-! ## Trees with different tokens -/

/-- The settings with this token. -/
def Settings.withToken (settings : Settings) (token : String) : Settings :=
  { settings with bearerToken := some token }

/-- Both trees keep the settings at the path, each of them with a token of its own, and
hold the same otherwise. -/
structure Counterparts (path : String) (settings : Settings) (token otherToken : String)
    (first second : Tree) : Prop where
  place : ∃ directory name, first.resolve path = .ok (.name directory name false) ∧
    Twins (directory ++ [name]) first second
  written : (settings.withToken token).WrittenAt path first
  otherWritten : (settings.withToken otherToken).WrittenAt path second

section Counterparts

variable {store : Store} {settings : Settings} {token otherToken : String} {first second : Tree}

/-- A change of anything but the token succeeds in both trees or fails in both, and
afterwards they are counterparts again. -/
theorem Counterparts.update {change : Settings → Settings}
    (hcounterparts : Counterparts store.path settings token otherToken first second)
    (hchange : ∀ settings token,
      change (settings.withToken token) = (change settings).withToken token) :
    let updated := store.update change first
    let otherUpdated := store.update change second
    otherUpdated.steps = updated.steps ∧
      (∃ after,
        Counterparts store.path after token otherToken updated.value.1 otherUpdated.value.1) ∧
      ((∃ failure, updated.value.2 = .error failure ∧ otherUpdated.value.2 = .error failure) ∨
        ∃ saved otherSaved,
          updated.value.2 = .ok saved ∧ otherUpdated.value.2 = .ok otherSaved) := by
  intro updated otherUpdated
  obtain ⟨⟨directory, name, hresolve, htwins⟩, hwritten, hotherWritten⟩ := hcounterparts
  have hload := Store.load_of_written hwritten
  have hotherLoad := Store.load_of_written hotherWritten
  obtain ⟨hsaved, hresult, hsteps⟩ := Store.twins_save htwins hresolve
    ((change settings).withToken token) ((change settings).withToken otherToken)
  have hplace := (store.keeps_save ((change settings).withToken token) first).resolve hresolve
  simp only [updated, otherUpdated, Store.value_update hload, Store.value_update hotherLoad,
    Store.steps_update hload, Store.steps_update hotherLoad, hchange]
  refine ⟨hsteps, ?_⟩
  obtain ⟨outcome, houtcome⟩ : ∃ outcome,
      (store.save ((change settings).withToken token) first).value.2 = outcome := ⟨_, rfl⟩
  rw [houtcome] at hresult
  rw [houtcome, hresult]
  cases outcome with
  | error failure =>
      refine ⟨⟨settings, ⟨directory, name, hplace, hsaved⟩, ?_, ?_⟩, .inl ⟨failure, rfl, rfl⟩⟩
      · exact Store.writtenAt_of_prepares hwritten (Store.prepares_of_save houtcome)
      · exact Store.writtenAt_of_prepares hotherWritten (Store.prepares_of_save hresult)
  | ok done =>
      refine ⟨⟨change settings, ⟨directory, name, hplace, hsaved⟩, ?_, ?_⟩, .inr ⟨_, _, rfl, rfl⟩⟩
      · exact Store.writtenAt_of_save houtcome
      · exact Store.writtenAt_of_save hresult

/-! ## Commands -/

/-- Whoever does not see the headers and the files cannot tell the runs apart, and the
files are counterparts. -/
structure Indistinct (path token otherToken : String) (first second : Traced Completion) :
    Prop where
  steps : second.steps.map Step.anonymous = first.steps.map Step.anonymous
  sink : second.value.sink = first.value.sink
  result : second.value.result = first.value.result
  counterparts : ∃ settings,
    Counterparts path settings token otherToken first.value.tree second.value.tree

theorem Counterparts.change {circumstances : Circumstances} {change : Settings → Settings}
    (hcounterparts : Counterparts circumstances.store.path settings token otherToken first second)
    (hchange : ∀ settings token,
      change (settings.withToken token) = (change settings).withToken token)
    (confirmation : String) (sink : Sink) :
    Indistinct circumstances.store.path token otherToken
      (circumstances.change change confirmation first sink)
      (circumstances.change change confirmation second sink) := by
  obtain ⟨hsteps, hafter, hresults⟩ := hcounterparts.update hchange
  have hsteps := congrArg (List.map Step.anonymous) hsteps
  rcases hresults with ⟨failure, hresult, hotherResult⟩ | ⟨saved, otherSaved, hresult, hotherResult⟩
  · rw [circumstances.change_of_error _ _ hresult, circumstances.change_of_error _ _ hotherResult]
    exact ⟨hsteps, rfl, rfl, hafter⟩
  · rw [circumstances.change_of_ok _ _ hresult, circumstances.change_of_ok _ _ hotherResult]
    exact ⟨hsteps, rfl, rfl, hafter⟩

/-- A view does not depend on the token. -/
theorem Settings.shown_withToken (settings : Settings) (token otherToken path : String)
    (asJson : Bool) :
    (settings.withToken otherToken).shown path asJson =
      (settings.withToken token).shown path asJson := by
  cases asJson <;> rfl

/-- A token that fits into a header makes a header that does. -/
theorem Client.header_of_token (settings : Settings) (hheader : Client.isHeaderText token = true) :
    (settings.withToken token).client.authorization.all Client.isHeaderText = true := by
  have hbearer : Client.isHeaderText ("Bearer " ++ token) = true := by
    unfold Client.isHeaderText at hheader ⊢
    rw [String.toList_append, List.all_append, hheader]
    decide
  cases hgiven : given? token with
  | none => simp [Client.authorization, Settings.client, Settings.withToken, hgiven]
  | some given =>
      obtain ⟨-, rfl⟩ := given?_eq_some_iff.mp hgiven
      simp [Client.authorization, Settings.client, Settings.withToken, hgiven, hbearer]

/-- Settings that differ in the token lead to the same failure, or to clients that
differ in the token. -/
theorem Client.ofSettings_withToken (settings : Settings)
    (hheader : Client.isHeaderText token = true)
    (hotherHeader : Client.isHeaderText otherToken = true) :
    (∃ failure, Client.ofSettings (settings.withToken token) = .error failure ∧
        Client.ofSettings (settings.withToken otherToken) = .error failure) ∨
      ∃ client otherClient, Client.ofSettings (settings.withToken token) = .ok client ∧
        Client.ofSettings (settings.withToken otherToken) = .ok otherClient ∧
        client.Alike otherClient := by
  by_cases haddress : settings.apiAddress = ""
  · refine .inl ⟨_, if_pos ?_, if_pos ?_⟩
    · simp [Settings.withToken, haddress]
    · simp [Settings.withToken, haddress]
  · refine .inr ⟨_, _, Client.ofSettings_of_addressed _ haddress,
      Client.ofSettings_of_addressed _ haddress, rfl, rfl, ?_, ?_⟩
    · exact Client.header_of_token settings hheader
    · exact Client.header_of_token settings hotherHeader

/-- With loadable settings, a promotion leaves the files as they are. -/
theorem Command.run_promote {circumstances : Circumstances} {tree : Tree} {loaded : Settings}
    (hload : circumstances.store.load tree = .ok loaded) (arguments : PromoteArguments)
    (network : Http.Network) (sink : Sink) :
    let connect := (Client.ofSettings (loaded.under circumstances)).map (·.service network)
    let promoted :=
      FreightPromotion.promote circumstances.deadline (arguments.options loaded) (pure connect) sink
    (Command.promote arguments).run circumstances network tree sink =
      ⟨promoted.steps, ⟨tree, promoted.value.1, promoted.value.2⟩⟩ := by
  intro connect promoted
  have hconnect : (do
        let client ← Client.ofSettings (loaded.under circumstances)
        return client.service network : Result Service) = connect := by
    cases hclient : Client.ofSettings (loaded.under circumstances) <;>
      simp only [connect, hclient] <;> rfl
  simp only [Command.run, hload, hconnect]
  simp [bind, pure, promoted]

theorem Counterparts.promote {circumstances : Circumstances}
    (hcounterparts : Counterparts circumstances.store.path settings token otherToken first second)
    (hheader : Client.isHeaderText token = true)
    (hotherHeader : Client.isHeaderText otherToken = true) (arguments : PromoteArguments)
    (network : Http.Network) (sink : Sink) :
    Indistinct circumstances.store.path token otherToken
      ((Command.promote arguments).run circumstances network first sink)
      ((Command.promote arguments).run circumstances network second sink) := by
  have hload := Store.load_of_written hcounterparts.written
  have hotherLoad := Store.load_of_written hcounterparts.otherWritten
  rw [Command.run_promote hload, Command.run_promote hotherLoad]
  have hoptions : ∀ token,
      arguments.options (settings.withToken token) = arguments.options settings := fun _ => rfl
  have hunder : ∀ token, (settings.withToken token).under circumstances =
      (settings.under circumstances).withToken token := fun _ => rfl
  simp only [hoptions, hunder]
  rcases Client.ofSettings_withToken (settings.under circumstances) hheader hotherHeader with
    ⟨failure, hclient, hotherClient⟩ | ⟨client, otherClient, hclient, hotherClient, halike⟩
  · rw [hclient, hotherClient]
    exact ⟨rfl, rfl, rfl, settings, hcounterparts⟩
  · rw [hclient, hotherClient]
    obtain ⟨hsteps, hvalue⟩ := Traced.anonymous_eq_iff.mp
      (halike.promote network circumstances.deadline (arguments.options settings) sink)
    exact ⟨hsteps, congrArg Prod.fst hvalue, congrArg Prod.snd hvalue, settings, hcounterparts⟩

theorem Counterparts.run {circumstances : Circumstances}
    (hcounterparts : Counterparts circumstances.store.path settings token otherToken first second)
    (hheader : Client.isHeaderText token = true)
    (hotherHeader : Client.isHeaderText otherToken = true) (command : Command)
    (network : Http.Network) (sink : Sink) :
    Indistinct circumstances.store.path token otherToken
      (command.run circumstances network first sink)
      (command.run circumstances network second sink) := by
  cases command with
  | promote arguments => exact hcounterparts.promote hheader hotherHeader arguments network sink
  | viewSettings asJson =>
      have hload := Store.load_of_written hcounterparts.written
      have hotherLoad := Store.load_of_written hcounterparts.otherWritten
      simp only [Command.run, hload, hotherLoad]
      refine ⟨rfl, ?_, rfl, settings, hcounterparts⟩
      rw [settings.shown_withToken token otherToken]
      rfl
  | setProject project =>
      simp only [Command.run]
      split
      · exact ⟨rfl, rfl, rfl, settings, hcounterparts⟩
      · exact hcounterparts.change (fun _ _ => rfl) _ sink
  | setServer address =>
      simp only [Command.run]
      split
      · exact ⟨rfl, rfl, rfl, settings, hcounterparts⟩
      · exact hcounterparts.change (fun _ _ => rfl) _ sink

end Counterparts

/-! ## Runs -/

/-- The reports show the same, apart from the tokens in the messages. -/
structure Report.Matches (first second : Report) : Prop where
  output : second.output = first.output
  result : second.result = first.result
  events : Traced.events second.steps = Traced.events first.steps
  posts : second.posts.map Http.Post.anonymous = first.posts.map Http.Post.anonymous

/-- The server has received as many messages, and the files are counterparts. -/
structure World.Parallel (path token otherToken : String) (first second : World) : Prop where
  received : second.received = first.received
  counterparts : ∃ settings, Counterparts path settings token otherToken first.tree second.tree

section Runs

variable {path token otherToken : String} {first second : World}

theorem World.Parallel.take (hparallel : World.Parallel path token otherToken first second)
    (hheader : Client.isHeaderText token = true)
    (hotherHeader : Client.isHeaderText otherToken = true) (server : Http.Server) {turn : Turn}
    (hstore : turn.circumstances.store.path = path) :
    World.Parallel path token otherToken (first.take server turn).1 (second.take server turn).1 ∧
      (first.take server turn).2.Matches (second.take server turn).2 := by
  subst hstore
  obtain ⟨hreceived, settings, hcounterparts⟩ := hparallel
  obtain ⟨hsteps, hsink, hresult, hafter⟩ := hcounterparts.run hheader hotherHeader turn.command
    (server.network first.received) turn.sink
  have hposts := Traced.posts_of_anonymous hsteps
  unfold World.take
  -- The server answers by how many messages it has received, so the counts must agree.
  rw [hreceived]
  refine ⟨⟨?_, hafter⟩, congrArg Sink.written hsink, hresult, Traced.events_of_anonymous hsteps,
    hposts⟩
  have hlength := congrArg List.length hposts
  rw [List.length_map, List.length_map] at hlength
  exact congrArg (first.received + ·) hlength

theorem World.Parallel.takeAll (hparallel : World.Parallel path token otherToken first second)
    (hheader : Client.isHeaderText token = true)
    (hotherHeader : Client.isHeaderText otherToken = true) (server : Http.Server)
    {turns : List Turn} (hstore : ∀ turn ∈ turns, turn.circumstances.store.path = path) :
    World.Parallel path token otherToken (first.takeAll server turns).1
      (second.takeAll server turns).1 := by
  induction turns generalizing first second with
  | nil => exact hparallel
  | cons turn turns ih =>
      have hnext := (hparallel.take hheader hotherHeader server (hstore turn List.mem_cons_self)).1
      exact ih hnext fun other hother => hstore other (List.mem_cons_of_mem _ hother)

end Runs

/-- Two runs of the same turns, in trees that differ only in the token of the settings.
In every turn they print the same, end in the same way and log the same events, and
their messages differ in the authorization only.  Afterwards the trees differ again
only in the token of the settings, and each of them keeps its own. -/
theorem token_stays_hidden {path token otherToken : String} {settings : Settings}
    {first second : Tree} (hheader : Client.isHeaderText token = true)
    (hotherHeader : Client.isHeaderText otherToken = true)
    (hcounterparts : Counterparts path settings token otherToken first second) (received : Nat)
    (server : Http.Server) {turns : List Turn}
    (hstore : ∀ turn ∈ turns, turn.circumstances.store.path = path) :
    ∀ before turn, before ++ [turn] <+: turns →
      let taken := (World.takeAll ⟨first, received⟩ server before).1.take server turn
      let otherTaken := (World.takeAll ⟨second, received⟩ server before).1.take server turn
      taken.2.Matches otherTaken.2 ∧
        ∃ after, Counterparts path after token otherToken taken.1.tree otherTaken.1.tree := by
  intro before turn hbefore taken otherTaken
  have hturns : ∀ other ∈ before ++ [turn], other.circumstances.store.path = path :=
    fun other hother => hstore other (hbefore.subset hother)
  have hinitial : World.Parallel path token otherToken ⟨first, received⟩ ⟨second, received⟩ :=
    ⟨rfl, settings, hcounterparts⟩
  have hreached := hinitial.takeAll hheader hotherHeader server
    fun other hother => hturns other (List.mem_append_left _ hother)
  obtain ⟨hnext, hmatches⟩ :=
    hreached.take hheader hotherHeader server (hturns turn (by simp))
  exact ⟨hmatches, hnext.counterparts⟩

/-- A view after a change of the address hides which token was kept all along. -/
theorem view_hides_token :
    let kept (token : String) : Settings := { bearerToken := some token, project := some "p" }
    let tree (token : String) : Tree :=
      { entries := [(["config.json"], .file (Store.contentOf (kept token)))] }
    let circumstances : Circumstances := { store := ⟨"config.json", 7⟩ }
    let change : Turn := { circumstances, command := .setServer "http://127.0.0.1/" }
    let view : Turn := { circumstances, command := .viewSettings true }
    let taken (token : String) :=
      (World.takeAll ⟨tree token, 0⟩ ⟨80, [], .plain⟩ [change]).1.take ⟨80, [], .plain⟩ view
    (taken "a").2.Matches (taken "b").2 ∧
      ∃ after, Counterparts "config.json" after "a" "b" (taken "a").1.tree (taken "b").1.tree := by
  intro kept tree circumstances change view taken
  have hresolve : ∀ token,
      (tree token).resolve "config.json" = .ok (.name [] "config.json" false) :=
    fun token => Tree.resolve_bare (tree token) (by decide) (by decide) (by decide) (by decide)
  have hwritten : ∀ token, (kept token).WrittenAt "config.json" (tree token) := fun token =>
    (kept token).writtenAt_alone
  have htwins : Twins ["config.json"] (tree "a") (tree "b") := by
    refine ⟨rfl, fun location hlocation => ?_, ⟨_, rfl⟩, ⟨_, rfl⟩⟩
    simp [tree, Tree.entry?, List.lookup_cons, beq_false_of_ne hlocation]
  have hcounterparts :
      Counterparts "config.json" { project := some "p" } "a" "b" (tree "a") (tree "b") :=
    ⟨⟨[], "config.json", hresolve "a", htwins⟩, hwritten "a", hwritten "b"⟩
  have hstore : ∀ turn ∈ [change] ++ [view], turn.circumstances.store.path = "config.json" := by
    simp [change, view, circumstances]
  exact token_stays_hidden (by decide) (by decide) hcounterparts 0 ⟨80, [], .plain⟩ hstore [change] view
    List.prefix_rfl

end FreightPromotion
