import FreightPromotion.Proofs.Addresses
import FreightPromotion.Proofs.Changes
import FreightPromotion.Proofs.Truncation

/-!
# A server that is stored and one that is named

The address of the server can be stored in the settings, or it can be named for one promotion.  A
promotion reads the settings only through its options and its client (`World.report_promote`), and
storing an address leaves both nearly as if it had been named: the slashes at its end are trimmed
once more, which changes nothing, and the flag that is stored with it replaces the one in the
settings, where the named one is only added to it (`clients_of_addressed`).

There are two exceptions (`stored_server_agrees_unless_spoiled`).  An address of nothing but slashes
is not empty, so it can be stored, but nothing of it is left, and the settings then name no server
at all.  Where the address is named instead, the promotion gets as far as the message, whose address
is not valid.  No message is sent either way (`promote_of_blank`), but the failures differ.

The other exception is the flag.  If the settings say that certificates go unchecked and nothing
else does, storing an address takes that back.  A server whose certificate does not pass then
receives nothing, where it gets the message of the promotion that names the address
(`stored_server_loses_flag`).
-/

namespace FreightPromotion

open FreightPromotion.Files (Tree)

/-! ## Routes to a server -/

section Routes

variable {server : Http.Server} {received : Nat} {unchecked : Bool}

/-- Whether its certificate is checked matters only to a server whose certificate does not pass. -/
theorem Http.Server.network_congr {other : Bool}
    (hroute : unchecked = other ∨ server.protection ≠ .untrusted) (url : Http.Url) :
    server.network received ⟨url, unchecked⟩ = server.network received ⟨url, other⟩ := by
  rcases hroute with rfl | hprotection
  · rfl
  · have hagrees : server.agreesOn ⟨url, unchecked⟩ = server.agreesOn ⟨url, other⟩ := by
      unfold Http.Server.agreesOn
      cases hcase : server.protection with
      | plain | trusted => rfl
      | untrusted => exact absurd hcase hprotection
    simp only [Http.Server.network, hagrees]

theorem Http.Server.network_of_untrusted (hprotection : server.protection = .untrusted)
    (url : Http.Url) : server.network received ⟨url, false⟩ = .refused := by
  simp [Http.Server.network, Http.Server.agreesOn, hprotection]

/-- A client that checks certificates finds no connection to a server whose certificate does not
pass. -/
theorem Client.post_of_untrusted {client other : Client} {deadline : Deadline}
    {operation : Operation} {body : String} (hprotection : server.protection = .untrusted)
    (hbase : client.baseAddress = other.baseAddress) (htoken : client.token = other.token)
    (hchecked : client.insecureSkipTlsVerify = false) :
    client.post (server.network received) deadline operation body =
      other.post (fun _ => .refused) deadline operation body := by
  refine Client.post_congr hbase htoken fun url => ?_
  rw [Client.route, hchecked]
  exact Http.Server.network_of_untrusted hprotection url

end Routes

/-! ## Clients -/

/-- How a promotion fails if the settings name no server. -/
def unaddressed : Failure :=
  .ofMessage "no API server configured (pass --server or run `kargo config set-server`)"

theorem Client.ofSettings_of_empty {settings : Settings} (haddress : settings.apiAddress = "") :
    Client.ofSettings settings = .error unaddressed := by
  rw [Client.ofSettings, haddress]
  rfl

/-! ## What a promotion depends on -/

/-- The promotion that arguments ask for, once the settings have been loaded. -/
def PromoteArguments.promotion (arguments : PromoteArguments) (circumstances : Circumstances)
    (network : Http.Network) (settings : Settings) (sink : Sink) : Traced (Sink × Result Unit) :=
  promote circumstances.deadline (arguments.options settings)
    (pure ((Client.ofSettings (settings.under circumstances)).map (·.service network))) sink

/-- What is reported of a promotion. -/
def Report.ofPromotion (run : Traced (Sink × Result Unit)) : Report :=
  ⟨run.steps, run.value.1.written, run.value.2⟩

theorem World.report_promote (world : World) (server : Http.Server) {circumstances : Circumstances}
    {settings : Settings} (arguments : PromoteArguments) (sink : Sink)
    (hload : circumstances.store.load world.tree = .ok settings) :
    (world.take server ⟨circumstances, .promote arguments, sink⟩).2 =
      .ofPromotion
        (arguments.promotion circumstances (server.network world.received) settings sink) := by
  simp only [World.take, Command.run, hload, Client.service_of_settings, Traced.steps_bind,
    Traced.steps_pure, Traced.value_bind, Traced.value_pure, List.append_nil]
  rfl

/-! ## Failures of promotions -/

section Failures

variable {options : Options} {request : Request} {deadline : Deadline} {sink : Sink}
  {failure : Failure}

/-- The failure of a call is labelled with the operation. -/
theorem labels_of_submit {service : Service}
    (hfailure : (request.submit deadline service).value.failure = some failure) :
    failure.labels ≠ [] := by
  cases hselector : request.selector with
  | stage stage =>
      rw [Request.submit_stage deadline service hselector] at hfailure
      dsimp only at hfailure
      cases hcall :
          (service.promoteToStage deadline request.project request.freight stage).value with
      | ok promotion => simp [hcall, Outcome.ofStage] at hfailure
      | error cause =>
          simp only [hcall, Outcome.ofStage, Option.some.injEq] at hfailure
          simp [← hfailure, Failure.within]
  | subscribersOf stage =>
      rw [Request.submit_subscribersOf deadline service hselector] at hfailure
      obtain ⟨cause, -, rfl⟩ := Option.map_eq_some_iff.mp hfailure
      simp [Failure.within]

/-- An outcome is shown with the failure of the call or that of a part. -/
theorem failure_of_present {outcome : Outcome} {format : Option Format}
    (hresult : (outcome.present (.fresh format) sink).value.2.2 = .error failure) :
    outcome.failure = some failure ∨ ∃ part : Part, failure = part.failure := by
  rw [Outcome.value_present] at hresult
  cases hfailure : outcome.failure with
  | some reported =>
      rw [hfailure] at hresult
      exact .inl (congrArg some (Except.error.inj hresult))
  | none =>
      simp only [hfailure, Presentation.show_eq_writeParts] at hresult
      exact .inr (exists_part_of_writeParts hresult)

/-- A promotion that reaches the service says in its failure what was being done. -/
theorem labels_of_promote {service : Service} (hvalidate : options.validate = .ok request)
    (hresult : (promote deadline options (pure (.ok service)) sink).value.2 = .error failure) :
    failure.labels ≠ [] := by
  rw [promote_of_reached deadline sink hvalidate rfl] at hresult
  rcases failure_of_present hresult with hcall | ⟨part, rfl⟩
  · exact labels_of_submit hcall
  · exact List.cons_ne_nil _ _

end Failures

/-! ## Promotions that exchange the same -/

section Exchanged

variable {first second : Client} {network other : Http.Network} {deadline : Deadline}
  {request : Request}

theorem submit_of_post
    (hpost : second.post other deadline request.operation request.body =
      first.post network deadline request.operation request.body) :
    request.submit deadline (second.service other) =
      request.submit deadline (first.service network) := by
  cases hselector : request.selector with
  | stage stage =>
      simp only [Request.operation, Request.body, hselector, Selector.stageName] at hpost
      simp only [Request.submit, hselector, Client.service, hpost]
  | subscribersOf stage =>
      simp only [Request.operation, Request.body, hselector, Selector.stageName] at hpost
      simp only [Request.submit, hselector, Client.service, hpost]

/-- Of its client and the network, a promotion sees the one exchange. -/
theorem promote_of_post {options : Options} (sink : Sink)
    (hvalidate : options.validate = .ok request)
    (hpost : second.post other deadline request.operation request.body =
      first.post network deadline request.operation request.body) :
    promote deadline options (pure (.ok (second.service other))) sink =
      promote deadline options (pure (.ok (first.service network))) sink := by
  rw [promote_of_reached deadline sink hvalidate rfl, promote_of_reached deadline sink hvalidate rfl,
    submit_of_post hpost]
  rfl

end Exchanged

/-! ## Addresses of which nothing is left -/

section Blank

variable {client : Client} {network : Http.Network} {deadline : Deadline} {operation : Operation}
  {body : String} {request : Request}

/-- A message that cannot be built leaves a failure. -/
theorem Client.value_post_of_unbuilt (network : Http.Network) (deadline : Deadline)
    {cause : Failure.Cause} (hmessage : client.message operation body = .error cause) :
    ∃ failure, (client.post network deadline operation body).value = .error failure := by
  cases hexpired : deadline.isExpired with
  | true => exact ⟨_, by simp [Client.post, hexpired]; rfl⟩
  | false => exact ⟨_, by simp [Client.post, hexpired, hmessage]; rfl⟩

/-- Nothing is created by a message that leaves a failure. -/
theorem promotions_submit_of_unsent {failure : Failure}
    (hpost : (client.post network deadline request.operation request.body).value =
      .error failure) :
    (request.submit deadline (client.service network)).value.promotions = [] := by
  cases hselector : request.selector with
  | stage stage =>
      rw [Request.submit_stage deadline _ hselector]
      simp only [Request.operation, Request.body, hselector, Selector.stageName] at hpost
      simp [Client.service, hpost, Outcome.ofStage]
  | subscribersOf stage =>
      rw [Request.submit_subscribersOf deadline _ hselector]
      simp only [Request.operation, Request.body, hselector, Selector.stageName] at hpost
      simp [Client.service, hpost, Outcome.ofSubscribers]

/-- Without a base, the address of an operation is none. -/
theorem Client.message_of_blank (hbase : client.baseAddress = "") (operation : Operation)
    (body : String) : client.message operation body = .error (.address .relative) := by
  have hread : Http.Url.read (client.address operation) = .error .relative := by
    rw [Client.address, hbase]
    cases operation <;> cbv
  rw [Client.message, hread]
  rfl

/-- A promotion without a base for its address sends nothing and shows nothing. -/
theorem promote_of_blank {options : Options} (network : Http.Network) (deadline : Deadline)
    (hbase : client.baseAddress = "") (hvalidate : options.validate = .ok request) (sink : Sink) :
    let run := promote deadline options (pure (.ok (client.service network))) sink
    Traced.posts run.steps = [] ∧ run.value.1 = sink := by
  intro run
  have hmessage := client.message_of_blank hbase request.operation request.body
  obtain ⟨failure, hpost⟩ := Client.value_post_of_unbuilt network deadline hmessage
  constructor
  · rw [posts_promote_of_reached deadline sink hvalidate]
    rcases client.posts_post network deadline request.operation request.body with
      ⟨message, ⟨-, url, hbuilt, -⟩, -⟩ | ⟨-, hposts⟩
    · exact nomatch hmessage.symm.trans hbuilt
    · exact hposts
  · have hconnect : (pure (.ok (client.service network)) : Traced (Result Service)).value =
        .ok (client.service network) := rfl
    have hrun := congrArg Traced.value (promote_of_reached deadline sink hvalidate hconnect)
    have hshow : ∀ presentation : Presentation, (presentation.show [] sink).2.1 = sink := by
      intro presentation
      cases presentation <;> rfl
    simp only [run, hrun, Outcome.value_present, promotions_submit_of_unsent hpost, hshow]

end Blank

/-! ## Settings with a stored server -/

/-- The settings after an address has been stored. -/
def Settings.withServer (settings : Settings) (address : String) (insecure : Bool) : Settings :=
  { settings with apiAddress := trimSlashes address, insecureSkipTlsVerify := insecure }

/-- The address has no part in the options. -/
theorem PromoteArguments.options_withServer (arguments : PromoteArguments) (settings : Settings)
    (address : String) (insecure : Bool) :
    arguments.options (settings.withServer address insecure) = arguments.options settings :=
  rfl

/-- Storing an address that succeeds leaves the settings with it, and the server has received
nothing. -/
theorem World.take_setServer {world : World} {server : Http.Server} {circumstances : Circumstances}
    {address : String} {sink : Sink} {settings : Settings}
    (hload : circumstances.store.load world.tree = .ok settings)
    (hstored : (world.take server ⟨circumstances, .setServer address, sink⟩).2.result = .ok ()) :
    let stored := (world.take server ⟨circumstances, .setServer address, sink⟩).1
    address ≠ "" ∧ stored.received = world.received ∧
      ∀ process, Store.load ⟨circumstances.store.path, process⟩ stored.tree =
        .ok (settings.withServer address circumstances.insecureSkipTlsVerify) := by
  intro stored
  let turn : Turn := ⟨circumstances, .setServer address, sink⟩
  have haddress : address ≠ "" := by
    rintro rfl
    simp [World.take, Command.run] at hstored
  have hposts : (world.take server turn).2.posts = [] := by
    refine posts_run_eq_nil _ _ _ _ _ ?_
    intro arguments hpromote
    cases hpromote
  have hreceived : stored.received = world.received := by
    have hcount := congrArg (world.received + ·.length) hposts
    exact hcount
  have hupdates : world.Updates server turn :=
    world.updates_of_setServer server rfl (by simpa using haddress)
  obtain ⟨htree, hresult⟩ := hupdates
  refine ⟨haddress, hreceived, fun process => Store.load_of_written ?_⟩
  -- The update succeeded, so that the changed settings have been saved.
  rw [hstored] at hresult
  cases hupdated : (circumstances.store.update turn.change world.tree).value.2 with
  | error failure => simp [turn, hupdated, Except.isOk, Except.toBool] at hresult
  | ok result =>
      obtain ⟨before, hbefore, -, hsave⟩ := Store.update_eq_ok (Prod.ext rfl hupdated)
      obtain rfl : settings = before := Except.ok.inj (hload.symm.trans hbefore)
      have hwritten := Store.writtenAt_of_save (congrArg Prod.snd hsave)
      rw [hsave, ← htree] at hwritten
      exact hwritten

theorem Store.load_path_congr {store other : Store} (hpath : store.path = other.path)
    (tree : Tree) : store.load tree = other.load tree := by
  rw [Store.load, Store.load, hpath]

/-! ## Addresses that can be stored -/

/-- Where settings can be saved, any address that is not empty can be stored. -/
theorem result_setServer {tree : Tree} {settings : Settings} {address : String}
    (server : Http.Server) (hload : Store.load ⟨"config.json", 7⟩ tree = .ok settings)
    (hsaves : ∀ settings, ∃ saved,
      (Store.save ⟨"config.json", 7⟩ settings tree).value = (saved, .ok ()))
    (haddress : address ≠ "") :
    (World.take { tree } server
      ⟨{ store := ⟨"config.json", 7⟩ }, .setServer address, .unlimited⟩).2.result = .ok () := by
  have hgiven : ¬ address.isEmpty := by simpa using haddress
  obtain ⟨saved, hsave⟩ := hsaves (settings.withServer address false)
  have hupdate : (Store.update ⟨"config.json", 7⟩ (·.withServer address false) tree).value =
      (saved, .ok (settings.withServer address false)) :=
    Store.update_of_save hload hsave
  have hchange := Circumstances.change_of_ok { store := ⟨"config.json", 7⟩ }
    ("API server set to " ++ trimSlashes address) .unlimited (congrArg Prod.snd hupdate)
  simp only [World.take, Command.run, if_neg hgiven]
  exact congrArg (·.value.result) hchange

theorem result_setServer_fresh (server : Http.Server) {address : String} (haddress : address ≠ "") :
    (World.take { tree := {} } server
      ⟨{ store := ⟨"config.json", 7⟩ }, .setServer address, .unlimited⟩).2.result = .ok () :=
  result_setServer server (Store.save_fresh {}).1 (fun settings => (Store.save_fresh settings).2)
    haddress

/-! ## Storing and naming a server -/

section Promotion

variable {arguments : PromoteArguments} {circumstances : Circumstances} {network : Http.Network}
  {settings : Settings} {sink : Sink}

theorem promotion_of_violations {violations : List Violation}
    (hvalidate : (arguments.options settings).validate = .error violations) :
    arguments.promotion circumstances network settings sink =
      ⟨[], sink, .error { cause := .invalidOptions violations }⟩ :=
  promote_of_violations circumstances.deadline sink hvalidate

theorem promotion_of_unaddressed {request : Request}
    (hvalidate : (arguments.options settings).validate = .ok request)
    (haddress : (settings.under circumstances).apiAddress = "") :
    arguments.promotion circumstances network settings sink =
      ⟨[.connect], sink, .error unaddressed⟩ := by
  rw [PromoteArguments.promotion, Client.ofSettings_of_empty haddress]
  exact promote_of_unreachable circumstances.deadline sink hvalidate rfl

theorem promotion_of_addressed (haddress : (settings.under circumstances).apiAddress ≠ "") :
    arguments.promotion circumstances network settings sink =
      promote circumstances.deadline (arguments.options settings)
        (pure (.ok ((settings.under circumstances).client.service network))) sink := by
  rw [PromoteArguments.promotion, Client.ofSettings_of_addressed _ haddress]
  rfl

end Promotion

/-- What holds for a promotion that names the server, and the flag that would be stored with it. -/
def Circumstances.naming (promoting storing : Circumstances) (address : String) : Circumstances :=
  { promoting with
    server := some address
    insecureSkipTlsVerify :=
      promoting.insecureSkipTlsVerify || storing.insecureSkipTlsVerify }

section Reports

variable {world : World} {server : Http.Server} {settings : Settings} {address : String}
  {storing promoting : Circumstances} {shown : Sink} (sink : Sink) {arguments : PromoteArguments}
  {request : Request}

/-- The promotion after storing the server is one of the changed settings. -/
theorem report_of_stored (hpath : promoting.store.path = storing.store.path)
    (hload : storing.store.load world.tree = .ok settings)
    (hstored : (world.take server ⟨storing, .setServer address, shown⟩).2.result = .ok ()) :
    ((world.take server ⟨storing, .setServer address, shown⟩).1.take server
        ⟨promoting, .promote arguments, sink⟩).2 =
      .ofPromotion (arguments.promotion promoting (server.network world.received)
        (settings.withServer address storing.insecureSkipTlsVerify) sink) := by
  obtain ⟨-, hreceived, hloads⟩ := World.take_setServer hload hstored
  rw [← hreceived]
  refine World.report_promote _ server arguments sink ?_
  rw [← hloads promoting.store.process]
  exact Store.load_path_congr hpath _

/-- The promotion that names the server is one of the settings as they were. -/
theorem report_of_named (address : String) (hpath : promoting.store.path = storing.store.path)
    (hload : storing.store.load world.tree = .ok settings) :
    (world.take server ⟨promoting.naming storing address, .promote arguments, sink⟩).2 =
      .ofPromotion (arguments.promotion (promoting.naming storing address)
        (server.network world.received) settings sink) :=
  World.report_promote world server arguments sink
    ((Store.load_path_congr hpath world.tree).trans hload)

/-- The stored address is that of the promotion, if it names no other. -/
theorem apiAddress_withServer (hserver : promoting.server = none) (insecure : Bool) :
    ((settings.withServer address insecure).under promoting).apiAddress = trimSlashes address := by
  simp [Settings.under, Settings.withServer, hserver]

/-- A promotion that names a server gets as far as its client. -/
theorem promotion_of_named (haddress : address ≠ "") (network : Http.Network) :
    arguments.promotion (promoting.naming storing address) network settings sink =
      promote promoting.deadline (arguments.options settings)
        (pure (.ok ((settings.under (promoting.naming storing address)).client.service network)))
        sink :=
  promotion_of_addressed haddress

/-- With an address of slashes, neither promotion sends or prints anything.  The stored one finds
no server, and the one that names it does not fail like that. -/
theorem reports_of_blank (hserver : promoting.server = none)
    (hpath : promoting.store.path = storing.store.path)
    (hload : storing.store.load world.tree = .ok settings)
    (hstored : (world.take server ⟨storing, .setServer address, shown⟩).2.result = .ok ())
    (hvalidate : (arguments.options settings).validate = .ok request)
    (hblank : trimSlashes address = "") :
    let later := ((world.take server ⟨storing, .setServer address, shown⟩).1.take server
      ⟨promoting, .promote arguments, sink⟩).2
    let direct :=
      (world.take server ⟨promoting.naming storing address, .promote arguments, sink⟩).2
    later = ⟨[.connect], sink.written, .error unaddressed⟩ ∧
      direct.posts = [] ∧ direct.output = sink.written ∧ direct.result ≠ .error unaddressed := by
  intro later direct
  obtain ⟨haddress, -, -⟩ := World.take_setServer hload hstored
  have hlater : later = _ := report_of_stored sink hpath hload hstored
  have hdirect : direct = _ := report_of_named sink address hpath hload
  rw [promotion_of_named sink haddress] at hdirect
  have hkept := hvalidate
  rw [← arguments.options_withServer settings address storing.insecureSkipTlsVerify] at hkept
  have hbase :
      (settings.under (promoting.naming storing address)).client.baseAddress = "" := hblank
  obtain ⟨hposts, hsink⟩ := promote_of_blank (server.network world.received) promoting.deadline
    hbase hvalidate sink
  refine ⟨?_, ?_, ?_, ?_⟩
  · have hunaddressed : ((settings.withServer address storing.insecureSkipTlsVerify).under
        promoting).apiAddress = "" := (apiAddress_withServer hserver _).trans hblank
    rw [hlater, promotion_of_unaddressed hkept hunaddressed]
    rfl
  · rw [hdirect]
    exact hposts
  · rw [hdirect]
    exact congrArg Sink.written hsink
  · rw [hdirect]
    intro hresult
    exact labels_of_promote hvalidate hresult rfl

/-- With options that break a rule, the server does not matter. -/
theorem reports_of_violations {violations : List Violation}
    (hpath : promoting.store.path = storing.store.path)
    (hload : storing.store.load world.tree = .ok settings)
    (hstored : (world.take server ⟨storing, .setServer address, shown⟩).2.result = .ok ())
    (hvalidate : (arguments.options settings).validate = .error violations) :
    let later := ((world.take server ⟨storing, .setServer address, shown⟩).1.take server
      ⟨promoting, .promote arguments, sink⟩).2
    later = (world.take server ⟨promoting.naming storing address, .promote arguments, sink⟩).2 ∧
      later.posts = [] ∧ later.result ≠ .error unaddressed := by
  intro later
  have hkept := hvalidate
  rw [← arguments.options_withServer settings address storing.insecureSkipTlsVerify] at hkept
  have hlater : later = _ := report_of_stored sink hpath hload hstored
  rw [promotion_of_violations hkept] at hlater
  refine ⟨?_, ?_, ?_⟩
  · rw [hlater, report_of_named sink address hpath hload, promotion_of_violations hvalidate]
  · rw [hlater]
    rfl
  · rw [hlater]
    exact nofun

/-- The settings say that certificates go unchecked, and neither the command that stores an address
nor the promotion after it says so again. -/
def Settings.LosesFlag (settings : Settings) (storing promoting : Circumstances) : Prop :=
  settings.insecureSkipTlsVerify = true ∧ storing.insecureSkipTlsVerify = false ∧
    promoting.insecureSkipTlsVerify = false

/-- With an address of which something is left, the clients of both promotions differ at most in
the flag, and then only if it is lost. -/
theorem clients_of_addressed (hserver : promoting.server = none) (address : String) :
    let stored :=
      ((settings.withServer address storing.insecureSkipTlsVerify).under promoting).client
    let named := (settings.under (promoting.naming storing address)).client
    stored.baseAddress = named.baseAddress ∧ stored.token = named.token ∧
      (settings.LosesFlag storing promoting → stored.insecureSkipTlsVerify = false) ∧
      (¬ settings.LosesFlag storing promoting →
        stored.insecureSkipTlsVerify = named.insecureSkipTlsVerify) := by
  intro stored named
  -- Trimming once more changes nothing.
  have hbase : stored.baseAddress = named.baseAddress := by
    simp [stored, named, Settings.client, Settings.under, Settings.withServer,
      Circumstances.naming, hserver]
  refine ⟨hbase, rfl, ?_⟩
  simp only [stored, named, Settings.client, Settings.under, Settings.withServer,
    Circumstances.naming, Settings.LosesFlag]
  cases settings.insecureSkipTlsVerify <;> cases storing.insecureSkipTlsVerify <;>
    cases promoting.insecureSkipTlsVerify <;> decide

/-- With an address of which something is left, the reports are the same, unless the flag is lost
for a server that a message gets to only with it. -/
theorem reports_of_addressed (hserver : promoting.server = none)
    (hpath : promoting.store.path = storing.store.path)
    (hload : storing.store.load world.tree = .ok settings)
    (hstored : (world.take server ⟨storing, .setServer address, shown⟩).2.result = .ok ())
    (hvalidate : (arguments.options settings).validate = .ok request)
    (haddressed : trimSlashes address ≠ "") :
    let later := ((world.take server ⟨storing, .setServer address, shown⟩).1.take server
      ⟨promoting, .promote arguments, sink⟩).2
    let direct :=
      (world.take server ⟨promoting.naming storing address, .promote arguments, sink⟩).2
    let dropped := settings.LosesFlag storing promoting ∧ server.protection = .untrusted ∧
      direct.posts ≠ []
    later.result ≠ .error unaddressed ∧ (¬ dropped → later = direct) ∧
      (dropped → later.posts = []) := by
  intro later direct dropped
  obtain ⟨haddress, -, -⟩ := World.take_setServer hload hstored
  set stored :=
    ((settings.withServer address storing.insecureSkipTlsVerify).under promoting).client
  set named := (settings.under (promoting.naming storing address)).client
  set network := server.network world.received
  obtain ⟨hbase, htoken, hchecked, hflag⟩ :
      stored.baseAddress = named.baseAddress ∧ stored.token = named.token ∧ _ ∧ _ :=
    clients_of_addressed hserver address
  have hlater : later = .ofPromotion (promote promoting.deadline (arguments.options settings)
      (pure (.ok (stored.service network))) sink) := by
    have hreport : later = _ := report_of_stored sink hpath hload hstored
    rwa [promotion_of_addressed (by rwa [apiAddress_withServer hserver])] at hreport
  have hdirect : direct = .ofPromotion (promote promoting.deadline (arguments.options settings)
      (pure (.ok (named.service network))) sink) := by
    have hreport : direct = _ := report_of_named sink address hpath hload
    rwa [promotion_of_named sink haddress] at hreport
  have hsame (hpost : stored.post network promoting.deadline request.operation request.body =
      named.post network promoting.deadline request.operation request.body) : later = direct := by
    rw [hlater, hdirect, promote_of_post sink hvalidate hpost]
  have hresult : later.result ≠ .error unaddressed := by
    rw [hlater]
    intro hresult
    exact labels_of_promote hvalidate hresult rfl
  by_cases hlost : settings.LosesFlag storing promoting ∧ server.protection = .untrusted
  · -- The stored promotion finds no connection, whatever the other one finds.
    have hunsent : stored.post network promoting.deadline request.operation request.body =
        named.post (fun _ => .refused) promoting.deadline request.operation request.body :=
      Client.post_of_untrusted hlost.2 hbase htoken (hchecked hlost.1)
    refine ⟨hresult, fun hsound => ?_, fun _ => ?_⟩
    · have hposts : direct.posts = [] := by
        by_contra hsome
        exact hsound ⟨hlost.1, hlost.2, hsome⟩
      rw [hdirect] at hposts
      refine hsame (hunsent.trans (Client.post_of_unsent ?_).symm)
      exact (posts_promote_of_reached promoting.deadline sink hvalidate).symm.trans hposts
    · rw [hlater]
      refine (posts_promote_of_reached promoting.deadline sink hvalidate).trans ?_
      rw [hunsent]
      exact Client.posts_post_of_refused ..
  · have hroutes : stored.insecureSkipTlsVerify = named.insecureSkipTlsVerify ∨
        server.protection ≠ .untrusted :=
      (not_and_or.mp hlost).imp_left hflag
    exact ⟨hresult, fun _ => hsame (Client.post_congr hbase htoken
      (Http.Server.network_congr hroutes)), fun hdropped => absurd ⟨hdropped.1, hdropped.2.1⟩ hlost⟩

end Reports

/-- A promotion after a server has been stored, and the same promotion of the settings before that
names the server and the flag instead, whatever the address and the settings are, and whatever the
server answers.  The two are the same in all that is reported, with two exceptions.

* The address consists of slashes and the options are accepted.  Neither promotion sends or prints
  anything then, but the stored one fails because no server is configured, although storing it
  succeeded, and the one that names the server fails otherwise.
* The settings said that certificates go unchecked, the flag that was stored with the address does
  not, nor does the promotion, and the certificate of the server does not pass a check.  If the
  promotion that names the server sends a message then, the stored one does not. -/
theorem stored_server_agrees_unless_spoiled (world : World) (server : Http.Server)
    (settings : Settings) (address : String) (arguments : PromoteArguments)
    (storing promoting : Circumstances) (shown sink : Sink)
    (hserver : promoting.server = none) (hpath : promoting.store.path = storing.store.path)
    (hload : storing.store.load world.tree = .ok settings)
    (hstored : (world.take server ⟨storing, .setServer address, shown⟩).2.result = .ok ()) :
    let stored := (world.take server ⟨storing, .setServer address, shown⟩).1
    let later := (stored.take server ⟨promoting, .promote arguments, sink⟩).2
    let direct :=
      (world.take server ⟨promoting.naming storing address, .promote arguments, sink⟩).2
    let blank := (∃ count, address = slashes count) ∧
      ∃ request, (arguments.options settings).validate = .ok request
    let dropped := settings.insecureSkipTlsVerify = true ∧
      storing.insecureSkipTlsVerify = false ∧ promoting.insecureSkipTlsVerify = false ∧
      server.protection = .untrusted ∧ direct.posts ≠ []
    (later = direct ↔ ¬ blank ∧ ¬ dropped) ∧
      (later.result = .error unaddressed ↔ blank) ∧
      (blank → later.posts = [] ∧ direct.posts = [] ∧ later.output = direct.output ∧
        later.result ≠ direct.result) ∧
      (dropped → later.posts = []) := by
  intro stored later direct blank dropped
  -- Reports that are the same, and do not fail for want of a server.
  have hsound (hblank : ¬ blank) (hresult : later.result ≠ .error unaddressed)
      (hreports : later = direct) (hdropped : ¬ dropped) :
      (later = direct ↔ ¬ blank ∧ ¬ dropped) ∧ (later.result = .error unaddressed ↔ blank) ∧
        (blank → later.posts = [] ∧ direct.posts = [] ∧ later.output = direct.output ∧
          later.result ≠ direct.result) ∧
        (dropped → later.posts = []) :=
    ⟨iff_of_true hreports ⟨hblank, hdropped⟩, iff_of_false hresult hblank,
      fun h => absurd h hblank, fun h => absurd h hdropped⟩
  cases hvalidate : (arguments.options settings).validate with
  | error violations =>
      obtain ⟨hreports, hposts, hresult⟩ :=
        reports_of_violations sink hpath hload hstored hvalidate
      have hreports : later = direct := hreports
      refine hsound (by simp [blank, hvalidate]) hresult hreports ?_
      rintro ⟨-, -, -, -, hsome⟩
      exact hsome (hreports ▸ hposts)
  | ok request =>
      by_cases hslashes : trimSlashes address = ""
      · have hblank : blank := ⟨trimSlashes_eq_empty_iff.mp hslashes, request, hvalidate⟩
        obtain ⟨hlater, hposts, houtput, hdirect⟩ :=
          reports_of_blank sink hserver hpath hload hstored hvalidate hslashes
        have hlater : later = ⟨[.connect], sink.written, .error unaddressed⟩ := hlater
        have hresult : later.result ≠ direct.result := by
          rw [hlater]
          exact hdirect.symm
        refine ⟨iff_of_false (fun hsame => hresult (by rw [hsame])) fun h => h.1 hblank,
          iff_of_true (by rw [hlater]) hblank, fun _ => ⟨by rw [hlater]; rfl, hposts, ?_, hresult⟩,
          fun hdropped => absurd hposts hdropped.2.2.2.2⟩
        rw [hlater]
        exact houtput.symm
      · have hblank : ¬ blank := fun h => hslashes (trimSlashes_eq_empty_iff.mpr h.1)
        obtain ⟨hresult, hsame, hunsent⟩ :=
          reports_of_addressed sink hserver hpath hload hstored hvalidate hslashes
        have hlost : dropped ↔ settings.LosesFlag storing promoting ∧
            server.protection = .untrusted ∧ direct.posts ≠ [] := by
          simp only [dropped, Settings.LosesFlag, and_assoc]
        rw [← hlost] at hsame hunsent
        by_cases hdropped : dropped
        · have hnone : later.posts = [] := hunsent hdropped
          refine ⟨iff_of_false ?_ fun h => h.2 hdropped, iff_of_false hresult hblank,
            fun h => absurd h hblank, fun _ => hnone⟩
          exact fun hreports => hdropped.2.2.2.2 (hreports ▸ hnone)
        · exact hsound hblank hresult (hsame hdropped) hdropped

/-- A server that is stored is the one that a promotion finds. -/
theorem stored_address_serves_promotion :
    let world : World := { tree := {} }
    let server : Http.Server := ⟨80, [], .plain⟩
    let address := "http://127.0.0.1:80/"
    let storing : Circumstances := { store := ⟨"config.json", 7⟩ }
    let promoting : Circumstances := { store := ⟨"config.json", 8⟩ }
    let arguments : PromoteArguments :=
      { project := some "p", freight := some "f", stage := some "s" }
    let stored := world.take server ⟨storing, .setServer address, .unlimited⟩
    stored.2.result = .ok () ∧
      (stored.1.take server ⟨promoting, .promote arguments, .unlimited⟩).2 =
        (world.take server
          ⟨promoting.naming storing address, .promote arguments, .unlimited⟩).2 := by
  intro world server address storing promoting arguments stored
  have hstored : stored.2.result = .ok () := result_setServer_fresh server (by decide)
  obtain ⟨hsame, -⟩ := stored_server_agrees_unless_spoiled world server {} address arguments
    storing promoting .unlimited .unlimited rfl rfl (Store.save_fresh {}).1 hstored
  refine ⟨hstored, hsame.mpr ⟨?_, ?_⟩⟩
  · rintro ⟨hslashes, -⟩
    exact absurd (trimSlashes_eq_empty_iff.mpr hslashes) (by decide)
  · rintro ⟨hflag, -⟩
    contradiction

/-- A lone slash can be stored, and the promotion that follows says that no server is
configured. -/
theorem stored_slash_names_no_server :
    let world : World := { tree := {} }
    let server : Http.Server := ⟨80, [], .plain⟩
    let address := "/"
    let storing : Circumstances := { store := ⟨"config.json", 7⟩ }
    let promoting : Circumstances := { store := ⟨"config.json", 8⟩ }
    let arguments : PromoteArguments :=
      { project := some "p", freight := some "f", stage := some "s" }
    let stored := world.take server ⟨storing, .setServer address, .unlimited⟩
    let later := (stored.1.take server ⟨promoting, .promote arguments, .unlimited⟩).2
    let direct :=
      (world.take server ⟨promoting.naming storing address, .promote arguments, .unlimited⟩).2
    stored.2.result = .ok () ∧ later.result = .error unaddressed ∧
      later.result ≠ direct.result := by
  intro world server address storing promoting arguments stored later direct
  have hstored : stored.2.result = .ok () := result_setServer_fresh server (by decide)
  have hvalidate : (arguments.options {}).validate =
      .ok { project := "p", freight := .named "f", selector := .stage "s" } := rfl
  have hserver : promoting.server = none := rfl
  have hpath : promoting.store.path = storing.store.path := rfl
  obtain ⟨hlater, -, -, hdirect⟩ := reports_of_blank .unlimited hserver hpath
    (Store.save_fresh {}).1 hstored hvalidate (by decide)
  have hresult : later.result = .error unaddressed := congrArg Report.result hlater
  exact ⟨hstored, hresult, hresult ▸ hdirect.symm⟩

/-- The number of the local host, written short. -/
theorem Http.Host.read_local : Http.Host.read "127.1".toList = .ok Http.Server.host := by
  have hparts : Host.parts "127.1" = ["127".toList, "1".toList] := by cbv
  have hdecoded : Text.decode? (Text.percentDecode "127.1".toList) = some "127.1" := by cbv
  have hlower : String.ofList ("127.1".toList.map Char.toLower) = "127.1" := by decide
  have hallowed : "127.1".toList.any Host.isForbiddenInName = false := by decide
  have hnumeric : Host.isNumeric "127.1" = true := by
    rw [Host.isNumeric, hparts]
    decide
  have hfourth : Host.fourth? "127.1" = some [127, 0, 0, 1] := by
    rw [Host.fourth?, hparts]
    decide +kernel
  unfold Host.read
  split
  · contradiction
  · rename_i hbracket
    exact absurd (List.cons.inj hbracket).1 (by decide)
  · simp only [hdecoded, hlower, hallowed, hnumeric, hfourth, if_true]
    decide

/-- A client of a local server that leaves its certificate unchecked. -/
def Client.trusting : Client := ⟨"https://127.1", none, true⟩

/-- It gets through to the server although the certificate does not pass a check. -/
theorem Client.exists_sends_trusting (received : Nat) (operation : Operation) (body : String) :
    ∃ message, Client.trusting.Sends (Http.Server.network ⟨443, [], .untrusted⟩ received) .none
      operation body message := by
  have htext : Http.Url.IsAuthority "127.1".toList := .of_all (by decide) (by decide)
  have hbase : Client.trusting.baseAddress =
      Http.Url.scheme true ++ "://" ++ String.ofList "127.1".toList := by
    decide
  have hread : Http.Url.readAuthority Http.Host.read "127.1".toList =
      .ok ⟨[], Http.Server.host, none⟩ := by
    have hparts : Http.Url.readAuthority Http.Host.read "127.1".toList =
        (Http.Host.read "127.1".toList).map fun host => ⟨[], host, none⟩ := by
      rfl
    rw [hparts, Http.Host.read_local]
    rfl
  refine ⟨_, rfl, _, Client.message_eq_ok_iff.mpr
    ⟨Client.trusting.read_address true hbase htext hread operation, rfl, rfl⟩, ?_⟩
  nofun

/-- A certificate that does not pass a check was accepted for good.  Storing the address of the
server takes that back, and the server receives nothing, where it gets the message of the promotion
that names it. -/
theorem stored_server_loses_flag :
    let settings : Settings := { insecureSkipTlsVerify := true }
    let world : World :=
      { tree := { entries := [(["config.json"], .file (Store.contentOf settings))] } }
    let server : Http.Server := ⟨443, [], .untrusted⟩
    let address := "https://127.1"
    let storing : Circumstances := { store := ⟨"config.json", 7⟩ }
    let promoting : Circumstances := { store := ⟨"config.json", 8⟩ }
    let arguments : PromoteArguments :=
      { project := some "p", freight := some "f", stage := some "s" }
    let stored := world.take server ⟨storing, .setServer address, .unlimited⟩
    let later := (stored.1.take server ⟨promoting, .promote arguments, .unlimited⟩).2
    let direct :=
      (world.take server ⟨promoting.naming storing address, .promote arguments, .unlimited⟩).2
    stored.2.result = .ok () ∧ later.posts = [] ∧ direct.posts ≠ [] := by
  intro settings world server address storing promoting arguments stored later direct
  have hload : storing.store.load world.tree = .ok settings :=
    Store.load_of_written settings.writtenAt_alone
  have hplace : world.tree.entry? ["config.json"] ≠ some .directory := by
    have hentry : world.tree.entry? ["config.json"] = some (.file (Store.contentOf settings)) := rfl
    simp [hentry]
  have htemporary : world.tree.entry? ["config.tmp.7"] ≠ some .directory := by
    have hentry : world.tree.entry? ["config.tmp.7"] = none := rfl
    simp [hentry]
  have hstored : stored.2.result = .ok () :=
    result_setServer server hload (Store.exists_save_of_bare world.tree hplace htemporary)
      (by decide)
  have hvalidate : (arguments.options settings).validate =
      .ok { project := "p", freight := .named "f", selector := .stage "s" } := rfl
  have hclient : (settings.under (promoting.naming storing address)).client = Client.trusting := by
    decide
  have hdirect : direct.posts ≠ [] := by
    have hreport : direct = _ := report_of_named .unlimited address rfl hload
    rw [promotion_of_named .unlimited (by decide), hclient] at hreport
    obtain ⟨message, hsends⟩ := Client.exists_sends_trusting 0 .promoteStage
      (Request.body ⟨"p", .named "f", .stage "s"⟩)
    have hposts : direct.posts = [message] := by
      rw [hreport]
      exact (posts_promote_of_reached promoting.deadline .unlimited hvalidate).trans hsends.posts_eq
    simp [hposts]
  have hlost : settings.LosesFlag storing promoting := ⟨rfl, rfl, rfl⟩
  have hserver : promoting.server = none := rfl
  have hpath : promoting.store.path = storing.store.path := rfl
  have hdropped : settings.LosesFlag storing promoting ∧ server.protection = .untrusted ∧
      direct.posts ≠ [] → later.posts = [] :=
    (reports_of_addressed .unlimited hserver hpath hload hstored hvalidate (by decide)).2.2
  have hprotection : server.protection = .untrusted := rfl
  have hposts : later.posts = [] := hdropped ⟨hlost, hprotection, hdirect⟩
  exact ⟨hstored, hposts, hdirect⟩

end FreightPromotion
