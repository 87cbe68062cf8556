import FreightPromotion.Command
import FreightPromotion.Proofs.Exchange
import FreightPromotion.Proofs.Submission

/-!
# At most one message for each command

A promotion must not be made twice, so no command may send more than one message.
`PromoteArguments.Ready` collects what has to hold for a promotion to send one: the
settings can be loaded, the options are accepted, a server is named, time is left,
the message can be built and the connection is accepted.  `posts_run_promote` shows
that exactly then one message is sent, and `posts_run_eq_nil` that no other command
sends any.  Neither the reply nor the sink that the output goes into has a part in
it.

Commands run in turn in a world.  The message of a turn depends on the world that
the turns before it have left, and on nothing else, so the statement for one command
carries over to every run (`turns_post_at_most_once`).
-/

namespace FreightPromotion

open FreightPromotion.Files (Tree)

/-! ## Messages among steps -/

@[simp]
theorem Traced.posts_nil : Traced.posts [] = [] := rfl

@[simp]
theorem Traced.posts_append (first second : List Step) :
    Traced.posts (first ++ second) = Traced.posts first ++ Traced.posts second :=
  List.filterMap_append ..

@[simp]
theorem Traced.posts_event_cons (event : Event) (steps : List Step) :
    Traced.posts (.event event :: steps) = Traced.posts steps := rfl

@[simp]
theorem Traced.posts_connect_cons (steps : List Step) :
    Traced.posts (.connect :: steps) = Traced.posts steps := rfl

@[simp]
theorem Traced.posts_call_cons (request : Request) (steps : List Step) :
    Traced.posts (.call request :: steps) = Traced.posts steps := rfl

/-! ## One submission -/

/-- The operation that a request asks for. -/
def Request.operation (request : Request) : Operation :=
  match request.selector with
  | .stage _ => .promoteStage
  | .subscribersOf _ => .promoteSubscribers

/-- The body of the message that asks for a request. -/
def Request.body (request : Request) : String :=
  (requestDocument request.project request.freight request.selector.stageName).compact

/-- A submission sends what its one operation sends. -/
theorem posts_submit (client : Client) (network : Http.Network) (deadline : Deadline)
    (request : Request) :
    Traced.posts (request.submit deadline (client.service network)).steps =
      Traced.posts (client.post network deadline request.operation request.body).steps := by
  cases hselector : request.selector with
  | stage stage =>
      rw [Request.submit_stage deadline _ hselector, Client.steps_promoteToStage]
      simp [Request.opening, Request.operation, Request.body, hselector, Selector.stageName]
  | subscribersOf stage =>
      rw [Request.submit_subscribersOf deadline _ hselector, Client.steps_promoteToSubscribers]
      simp [Request.opening, Request.operation, Request.body, hselector, Selector.stageName]

/-- Showing an outcome sends nothing, even if the sink refuses it. -/
theorem posts_present (outcome : Outcome) (presentation : Presentation) (sink : Sink) :
    Traced.posts (outcome.present presentation sink).steps = [] := by
  unfold Outcome.present
  obtain ⟨after, left, shown⟩ := presentation.show outcome.promotions sink
  cases outcome.failure <;> cases shown <;>
    simp [Traced.log, Traced.step]

theorem posts_promote_of_reached {options : Options} {request : Request} {client : Client}
    {network : Http.Network} (deadline : Deadline) (sink : Sink)
    (hvalidate : options.validate = .ok request) :
    Traced.posts (promote deadline options (pure (.ok (client.service network))) sink).steps =
      Traced.posts (client.post network deadline request.operation request.body).steps := by
  rw [promote_of_reached deadline sink hvalidate rfl]
  simp [posts_submit, posts_present]

/-! ## One command -/

/-- The client for settings that name a server. -/
def Settings.client (settings : Settings) : Client where
  baseAddress := trimSlashes settings.apiAddress
  token := settings.bearerToken.bind given?
  insecureSkipTlsVerify := settings.insecureSkipTlsVerify

/-- What has to hold for a promotion to send `message` to `url`. -/
structure PromoteArguments.Ready (arguments : PromoteArguments) (circumstances : Circumstances)
    (network : Http.Network) (tree : Tree) (settings : Settings) (request : Request)
    (url : Http.Url) (message : Http.Post) : Prop where
  loads : circumstances.store.load tree = .ok settings
  accepted : (arguments.options settings).validate = .ok request
  addressed : circumstances.server.getD settings.apiAddress ≠ ""
  timely : circumstances.deadline.isExpired = false
  built : (settings.under circumstances).client.message request.operation request.body =
    .ok (url, message)
  connected : network ((settings.under circumstances).client.route url) ≠ .refused

/-- A promotion sends this message. -/
def PromoteArguments.Sends (arguments : PromoteArguments) (circumstances : Circumstances)
    (network : Http.Network) (tree : Tree) (message : Http.Post) : Prop :=
  ∃ settings request url,
    arguments.Ready circumstances network tree settings request url message

theorem PromoteArguments.Ready.settings_eq {arguments : PromoteArguments}
    {circumstances : Circumstances} {network : Http.Network} {tree : Tree}
    {settings loaded : Settings} {request : Request} {url : Http.Url} {message : Http.Post}
    (hready : arguments.Ready circumstances network tree settings request url message)
    (hload : circumstances.store.load tree = .ok loaded) : settings = loaded :=
  Except.ok.inj (hready.loads.symm.trans hload)

section Command

variable {circumstances : Circumstances} {network : Http.Network} {tree : Tree}

theorem posts_save (store : Store) (settings : Settings) (tree : Tree) :
    Traced.posts (store.save settings tree).steps = [] := by
  unfold Store.save
  split <;> simp [Traced.log, Traced.step]

theorem posts_change (circumstances : Circumstances) (change : Settings → Settings)
    (confirmation : String) (tree : Tree) (sink : Sink) :
    Traced.posts (circumstances.change change confirmation tree sink).steps = [] := by
  have hupdate : Traced.posts (circumstances.store.update change tree).steps = [] := by
    unfold Store.update
    split <;> simp [posts_save]
  simp only [Circumstances.change, Traced.steps_bind, Traced.posts_append, hupdate]
  split <;> simp

/-- A command that is no promotion sends nothing. -/
theorem posts_run_eq_nil (command : Command) (circumstances : Circumstances)
    (network : Http.Network) (tree : Tree) (sink : Sink)
    (hcommand : ∀ arguments, command ≠ .promote arguments) :
    Traced.posts (command.run circumstances network tree sink).steps = [] := by
  cases command with
  | promote arguments => exact absurd rfl (hcommand arguments)
  | viewSettings asJson =>
      simp only [Command.run]
      split <;> simp
  | setProject project =>
      simp only [Command.run]
      split
      · simp
      · exact posts_change ..
  | setServer address =>
      simp only [Command.run]
      split
      · simp
      · exact posts_change ..

theorem Client.ofSettings_of_addressed (settings : Settings)
    (haddress : settings.apiAddress ≠ "") : Client.ofSettings settings = .ok settings.client := by
  simp [Client.ofSettings, Settings.client, haddress]

theorem Client.ofSettings_of_not_addressed (settings : Settings)
    (haddress : settings.apiAddress = "") : ∃ failure, Client.ofSettings settings = .error failure :=
  ⟨_, by simp only [Client.ofSettings, haddress]; rfl⟩

/-- The service is that of the client, if there is one. -/
theorem Client.service_of_settings (settings : Settings) (network : Http.Network) :
    (do
      let client ← Client.ofSettings settings
      return client.service network : Result Service) =
      (Client.ofSettings settings).map (·.service network) := by
  cases Client.ofSettings settings <;> rfl

/-- With loadable settings, a promotion takes the steps of its submission. -/
theorem steps_run_promote (arguments : PromoteArguments) (sink : Sink) {settings : Settings}
    (hload : circumstances.store.load tree = .ok settings) :
    ((Command.promote arguments).run circumstances network tree sink).steps =
      (promote circumstances.deadline (arguments.options settings)
        (pure ((Client.ofSettings (settings.under circumstances)).map (·.service network)))
        sink).steps := by
  simp only [Command.run, hload, Client.service_of_settings, Traced.steps_bind, Traced.steps_pure,
    List.append_nil]

/-- Of a promotion whose settings, options and server are there, the readiness is
that of the client. -/
theorem PromoteArguments.sends_iff {arguments : PromoteArguments} {settings : Settings}
    {request : Request} {message : Http.Post}
    (hload : circumstances.store.load tree = .ok settings)
    (hvalidate : (arguments.options settings).validate = .ok request)
    (haddress : circumstances.server.getD settings.apiAddress ≠ "") :
    arguments.Sends circumstances network tree message ↔
      (settings.under circumstances).client.Sends network circumstances.deadline
        request.operation request.body message := by
  constructor
  · rintro ⟨found, accepted, url, hready⟩
    obtain rfl := hready.settings_eq hload
    obtain rfl : accepted = request := Except.ok.inj (hready.accepted.symm.trans hvalidate)
    exact ⟨hready.timely, url, hready.built, hready.connected⟩
  · rintro ⟨htimely, url, hbuilt, hconnected⟩
    exact ⟨settings, request, url, hload, hvalidate, haddress, htimely, hbuilt, hconnected⟩

/-- A promotion that is ready sends its message once; any other sends nothing. -/
theorem posts_run_promote (arguments : PromoteArguments) (circumstances : Circumstances)
    (network : Http.Network) (tree : Tree) (sink : Sink) :
    let posts :=
      Traced.posts ((Command.promote arguments).run circumstances network tree sink).steps
    (∃ message, arguments.Sends circumstances network tree message ∧ posts = [message]) ∨
      ((∀ message, ¬ arguments.Sends circumstances network tree message) ∧ posts = []) := by
  intro posts
  -- The stages of a promotion fail in their order, and each failure refutes the part of
  -- readiness that belongs to it.
  cases hload : circumstances.store.load tree with
  | error failure =>
      refine .inr ⟨?_, by simp [posts, Command.run, hload]⟩
      rintro message ⟨settings, request, url, hready⟩
      exact nomatch hready.loads.symm.trans hload
  | ok settings =>
      have hposts : posts = _ := congrArg Traced.posts (steps_run_promote arguments sink hload)
      cases hvalidate : (arguments.options settings).validate with
      | error violations =>
          rw [promote_of_violations _ _ hvalidate] at hposts
          refine .inr ⟨?_, hposts⟩
          rintro message ⟨found, request, url, hready⟩
          obtain rfl := hready.settings_eq hload
          exact nomatch hready.accepted.symm.trans hvalidate
      | ok request =>
          by_cases haddress : circumstances.server.getD settings.apiAddress = ""
          · obtain ⟨failure, hfailure⟩ :=
              Client.ofSettings_of_not_addressed (settings.under circumstances) haddress
            rw [hfailure, promote_of_unreachable _ _ hvalidate rfl] at hposts
            refine .inr ⟨?_, hposts⟩
            rintro message ⟨found, accepted, url, hready⟩
            obtain rfl := hready.settings_eq hload
            exact hready.addressed haddress
          · rw [Client.ofSettings_of_addressed (settings.under circumstances) haddress] at hposts
            have hclient := hposts.trans (posts_promote_of_reached _ sink hvalidate)
            rw [hclient]
            simp only [PromoteArguments.sends_iff hload hvalidate haddress]
            exact Client.posts_post ..

/-- Two messages that a promotion may send are one. -/
theorem PromoteArguments.Sends.unique {arguments : PromoteArguments} {first second : Http.Post}
    (hfirst : arguments.Sends circumstances network tree first)
    (hsecond : arguments.Sends circumstances network tree second) : first = second := by
  obtain ⟨settings, request, url, hready⟩ := hsecond
  rw [PromoteArguments.sends_iff hready.loads hready.accepted hready.addressed] at hfirst
  exact hfirst.unique ⟨hready.timely, url, hready.built, hready.connected⟩

end Command

/-! ## Commands in turn -/

/-- A command, what holds for it, and the sink that its output goes into. -/
structure Turn where
  circumstances : Circumstances
  command : Command
  sink : Sink := .unlimited

/-- The messages of a command that ran. -/
def Report.posts (report : Report) : List Http.Post :=
  Traced.posts report.steps

/-- Runs the command of a turn in a world. -/
def World.take (world : World) (server : Http.Server) (turn : Turn) : World × Report :=
  let traced := turn.command.run turn.circumstances (server.network world.received) world.tree
    turn.sink
  let completion := traced.value
  (⟨completion.tree, world.received + (Traced.posts traced.steps).length⟩,
    ⟨traced.steps, completion.sink.written, completion.result⟩)

/-- Runs the commands of turns one after the other. -/
def World.takeAll (world : World) (server : Http.Server) : List Turn → World × List Report
  | [] => (world, [])
  | turn :: turns =>
    let (reached, report) := world.take server turn
    let (final, reports) := reached.takeAll server turns
    (final, report :: reports)

/-- Turns whose output is not limited are the commands of `World.runAll`. -/
theorem World.runAll_eq_takeAll (world : World) (server : Http.Server)
    (commands : List (Circumstances × Command)) :
    world.runAll server commands =
      world.takeAll server (commands.map fun entry => ⟨entry.1, entry.2, .unlimited⟩) := by
  induction commands generalizing world with
  | nil => rfl
  | cons entry commands ih =>
      obtain ⟨circumstances, command⟩ := entry
      simp only [World.runAll, List.map_cons, World.takeAll, ih]
      rfl

theorem World.takeAll_append (world : World) (server : Http.Server) (before after : List Turn) :
    let reached := (world.takeAll server before).1
    world.takeAll server (before ++ after) =
      ((reached.takeAll server after).1,
        (world.takeAll server before).2 ++ (reached.takeAll server after).2) := by
  induction before generalizing world with
  | nil => rfl
  | cons turn before ih =>
      intro reached
      simp only [List.cons_append, World.takeAll, ih]
      rfl

/-- The server has received what the reports show. -/
theorem World.received_takeAll (world : World) (server : Http.Server) (turns : List Turn) :
    (world.takeAll server turns).1.received =
      world.received + ((world.takeAll server turns).2.flatMap Report.posts).length := by
  induction turns generalizing world with
  | nil => rfl
  | cons turn turns ih =>
      simp only [World.takeAll, ih, List.flatMap_cons, List.length_append, ← Nat.add_assoc]
      rfl

/-- One turn sends the message of a promotion that is ready, and nothing otherwise. -/
theorem World.posts_take (world : World) (server : Http.Server) (turn : Turn) :
    let report := (world.take server turn).2
    report.posts.length ≤ 1 ∧
      (report.posts = [] ∨ ∃ arguments, turn.command = .promote arguments) ∧
      ∀ message, report.posts = [message] ↔
        ∃ arguments, turn.command = .promote arguments ∧
          arguments.Sends turn.circumstances (server.network world.received) world.tree
            message := by
  intro report
  by_cases hpromote : ∃ arguments, turn.command = .promote arguments
  · obtain ⟨arguments, hcommand⟩ := hpromote
    have hposts := posts_run_promote arguments turn.circumstances
      (server.network world.received) world.tree turn.sink
    rw [← hcommand] at hposts
    change (∃ message, _ ∧ report.posts = [message]) ∨ (_ ∧ report.posts = []) at hposts
    rcases hposts with ⟨message, hsends, hreport⟩ | ⟨hidle, hreport⟩
    · refine ⟨by simp [hreport], .inr ⟨arguments, hcommand⟩, fun other => ⟨fun hother => ?_, ?_⟩⟩
      · obtain rfl : message = other := by simpa [hreport] using hother
        exact ⟨arguments, hcommand, hsends⟩
      · rintro ⟨others, hothers, hsent⟩
        obtain rfl : arguments = others := by simpa [hcommand] using hothers
        rw [hreport, hsends.unique hsent]
    · refine ⟨by simp [hreport], .inl hreport, fun other => ⟨fun hother => ?_, ?_⟩⟩
      · simp [hreport] at hother
      · rintro ⟨others, hothers, hsent⟩
        obtain rfl : arguments = others := by simpa [hcommand] using hothers
        exact absurd hsent (hidle other)
  · have hreport : report.posts = [] :=
      posts_run_eq_nil _ _ _ _ _ fun arguments hcommand => hpromote ⟨arguments, hcommand⟩
    refine ⟨by simp [hreport], .inl hreport, fun other => ⟨fun hother => ?_, ?_⟩⟩
    · simp [hreport] at hother
    · rintro ⟨arguments, hcommand, -⟩
      exact absurd ⟨arguments, hcommand⟩ hpromote

/-- In every run, and at every turn of it, at most one message is sent.

The reports of a run are those of its turns in order, and with them the messages.
What a turn does depends on the world that the turns before have left: the files,
and how many messages the server has received.  It sends a message only if its
command is a promotion, and then exactly if this promotion is ready there. -/
theorem turns_post_at_most_once (world : World) (server : Http.Server)
    (before after : List Turn) (turn : Turn) :
    let reached := (world.takeAll server before).1
    let next := (reached.take server turn).1
    let report := (reached.take server turn).2
    (world.takeAll server (before ++ turn :: after)).2 =
        (world.takeAll server before).2 ++ report :: (next.takeAll server after).2 ∧
      reached.received =
        world.received + ((world.takeAll server before).2.flatMap Report.posts).length ∧
      report.posts.length ≤ 1 ∧
      (report.posts = [] ∨ ∃ arguments, turn.command = .promote arguments) ∧
      ∀ message, report.posts = [message] ↔
        ∃ arguments, turn.command = .promote arguments ∧
          ∃ settings request url,
            arguments.Ready turn.circumstances (server.network reached.received) reached.tree
              settings request url message := by
  intro reached next report
  refine ⟨?_, World.received_takeAll world server before, World.posts_take reached server turn⟩
  rw [World.takeAll_append]
  rfl

end FreightPromotion
