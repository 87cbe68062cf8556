import FreightPromotion.Proofs.Identification
import FreightPromotion.Proofs.Json.PrintedObjects
import FreightPromotion.Proofs.Secrecy
import FreightPromotion.Proofs.StoredServer
import FreightPromotion.Proofs.Text.Lines

/-!
# The stored token, as it is shown and as it is sent

The views of the settings and the client ask different questions of the token.  Both views show
one that is present (`Settings.lines_overview`, `Settings.isObject_redacted`), and the client sends
one that is present and not empty (`Settings.isSome_authorization_iff`).  Besides, it shows the user
who is named in the address, of whom the views say nothing.

So what is shown is what a promotion sends, with two exceptions: a token that is present but empty
is shown by both views and is not sent, and a user who is sent without a token is not shown as one
(`shown_token_is_sent_unless_spoiled`).
-/

namespace FreightPromotion

open FreightPromotion.Files (Tree)
open FreightPromotion.Json (Arrangement IsObject)
open FreightPromotion.Text (encode)

/-! ## What the views show -/

/-- The last line of the overview, without its end. -/
def Settings.tokenLine (settings : Settings) : String :=
  "token: " ++ if settings.bearerToken.isSome then "set" else "(none)"

namespace Settings

variable (settings : Settings)

theorem tokenLine_eq_set_iff :
    settings.tokenLine = "token: set" ↔ settings.bearerToken.isSome := by
  unfold tokenLine
  split_ifs with htoken
  · exact iff_of_true rfl htoken
  · exact iff_of_false (by decide) htoken

/-- Whatever the lines before it hold, the last line of the overview is that of the token. -/
theorem lines_overview (path : String) :
    ∃ before, Text.lines (settings.overview path) = before ++ [settings.tokenLine, ""] := by
  have hunbroken : '\n' ∉ settings.tokenLine.toList := by
    unfold tokenLine
    split_ifs <;> decide
  obtain ⟨front, hfront⟩ : ∃ front, settings.overview path =
      front ++ "\n" ++ "token: " ++ (if settings.bearerToken.isSome then "set" else "(none)") ++
        "\n" :=
    ⟨_, rfl⟩
  rw [@String.append_assoc _ "token: ", ← tokenLine] at hfront
  refine ⟨Text.lines front, ?_⟩
  rw [hfront, Text.lines_append_end, Text.lines_append_lineFeed, Text.lines_of_unbroken hunbroken,
    List.append_assoc, List.singleton_append]

end Settings

/-- The document of the redacted settings has a member for the token if there is a token. -/
theorem Settings.isObject_redacted (settings : Settings) :
    ∃ given, IsObject (encode (settings.redacted.document.pretty ++ "\n")) given ∧
      ("bearerToken" ∈ given.map Prod.fst ↔ settings.bearerToken.isSome) := by
  have hstores : Json.Stores .indented fields 0 1 settings.redacted.members {} settings.redacted :=
    stores_members settings.redacted
  obtain ⟨given, hobject, hdue⟩ :=
    Arrangement.indented.isObject_printed Json.isBlank_of_mem_lineFeed hstores.ends
  refine ⟨given, ?_, ?_⟩
  · rw [Text.encode_append]
    exact hobject
  · rw [Json.Matches.keys hdue, mem_keys_bearerToken, redacted, Option.isSome_map]

theorem Command.written_viewSettings {circumstances : Circumstances} {tree : Tree}
    {settings : Settings} (hload : circumstances.store.load tree = .ok settings) (asJson : Bool)
    (network : Http.Network) :
    ((Command.viewSettings asJson).run circumstances network tree .unlimited).value.sink.written =
      encode (settings.shown circumstances.store.path asJson) := by
  simp only [Command.run, hload]
  rfl

/-- What both views of settings that can be loaded say of the token. -/
theorem Command.views_show_token {circumstances : Circumstances} {tree : Tree}
    {settings : Settings} (hload : circumstances.store.load tree = .ok settings)
    (network : Http.Network) :
    let shown (asJson : Bool) := ((Command.viewSettings asJson).run circumstances network tree
      .unlimited).value.sink.written
    ∃ text before members, shown false = encode text ∧
      Text.lines text = before ++ [settings.tokenLine, ""] ∧ IsObject (shown true) members ∧
      ("bearerToken" ∈ members.map Prod.fst ↔ settings.bearerToken.isSome) := by
  intro shown
  have htext : shown false = _ := Command.written_viewSettings hload false network
  have hdocument : shown true = _ := Command.written_viewSettings hload true network
  obtain ⟨before, hbefore⟩ := settings.lines_overview circumstances.store.path
  obtain ⟨members, hobject, hmember⟩ := settings.isObject_redacted
  exact ⟨_, before, members, htext, hbefore, hdocument ▸ hobject, hmember⟩

/-! ## What a promotion sends -/

theorem mem_posts_run_promote {arguments : PromoteArguments} {circumstances : Circumstances}
    {network : Http.Network} {tree : Tree} {sink : Sink} {message : Http.Post} :
    message ∈ Traced.posts
        ((Command.promote arguments).run circumstances network tree sink).steps ↔
      arguments.Sends circumstances network tree message := by
  rcases posts_run_promote arguments circumstances network tree sink with
    ⟨sent, hsends, hposts⟩ | ⟨hnone, hposts⟩
  · rw [hposts, List.mem_singleton]
    constructor
    · rintro rfl
      exact hsends
    · exact fun hother => hother.unique hsends
  · rw [hposts]
    exact iff_of_false List.not_mem_nil (hnone message)

/-- The client for settings shows a token exactly if there is one and it is not empty. -/
theorem Settings.isSome_authorization_iff (settings : Settings) :
    settings.client.authorization.isSome ↔
      settings.bearerToken.isSome ∧ settings.bearerToken ≠ some "" := by
  simp only [Option.isSome_iff_exists, settings.authorization_client]
  cases settings.bearerToken with
  | none => simp
  | some token => simp

/-- A user is named in the address that a message goes to. -/
def Http.Post.NamesUser (message : Http.Post) : Prop :=
  ∃ url, Http.Url.read message.address = .ok url ∧ url.user.isSome

/-- A message shows the user who is named in its address, and the token of the settings that were
loaded for it. -/
theorem PromoteArguments.Sends.authorization_ne_nil_iff {arguments : PromoteArguments}
    {circumstances : Circumstances} {network : Http.Network} {tree : Tree} {message : Http.Post}
    {settings : Settings} (hsends : arguments.Sends circumstances network tree message)
    (hload : circumstances.store.load tree = .ok settings) :
    message.authorization ≠ [] ↔
      message.NamesUser ∨ settings.bearerToken.isSome ∧ settings.bearerToken ≠ some "" := by
  obtain ⟨loaded, request, url, hready⟩ := hsends
  obtain rfl := hready.settings_eq hload
  obtain ⟨hread, -, rfl⟩ := Client.message_eq_ok_iff.mp hready.built
  set client := (loaded.under circumstances).client
  set message := client.messageTo request.operation request.body url
  have huser : message.NamesUser ↔ message.userAuthorization.isSome := by
    have hpresent : message.userAuthorization.isSome = url.user.isSome := Option.isSome_map ..
    rw [hpresent]
    constructor
    · rintro ⟨other, hother, hsome⟩
      rwa [Except.ok.inj (hread.symm.trans hother)]
    · exact fun hsome => ⟨url, hread, hsome⟩
  have htoken : message.tokenAuthorization.isSome ↔
      loaded.bearerToken.isSome ∧ loaded.bearerToken ≠ some "" :=
    (loaded.under circumstances).isSome_authorization_iff
  rw [huser, ← htoken, Http.Post.authorization, ne_eq, List.append_eq_nil_iff, not_and_or]
  simp [Option.isSome_iff_ne_none]

/-! ## The views beside the messages -/

/-- What is there agrees with what is named, or is there and not empty, unless it is empty and
nobody is named, or it is not there and somebody is. -/
theorem isSome_agrees_iff {shown sent named : Prop} {token : Option String}
    (hshown : shown ↔ token.isSome) (hsent : sent ↔ named ∨ token.isSome ∧ token ≠ some "") :
    (shown ↔ sent) ↔ ¬ (token = some "" ∧ ¬ named ∨ token = none ∧ named) := by
  rw [hshown, hsent]
  by_cases hnamed : named
  · cases token <;> simp [hnamed]
  · cases token <;> simp [hnamed]

/-- Both views of a file of settings, beside a message that a promotion sends with these settings,
whatever its arguments and circumstances are.

The last line of the text view says that a token is set, and the document has a member for the
token, exactly if the message has a header that says who sends it, with two exceptions.

* The token of the settings is present but empty.  Then both views show a token, and the message has
  a header only if a user is named in its address.
* The settings hold no token.  Then neither view shows one, and the message has a header if a user
  is named in its address. -/
theorem shown_token_is_sent_unless_spoiled (network : Http.Network) (tree : Tree)
    (settings : Settings) (arguments : PromoteArguments) (viewing promoting : Circumstances)
    (sink : Sink) (message : Http.Post) (hpath : promoting.store.path = viewing.store.path)
    (hload : viewing.store.load tree = .ok settings)
    (hmessage : message ∈ Traced.posts
      ((Command.promote arguments).run promoting network tree sink).steps) :
    let shown (asJson : Bool) :=
      ((Command.viewSettings asJson).run viewing network tree .unlimited).value.sink.written
    let sent : Prop := message.authorization ≠ []
    let spoiled := settings.bearerToken = some "" ∧ ¬ message.NamesUser ∨
      settings.bearerToken = none ∧ message.NamesUser
    ∃ text before line members, shown false = encode text ∧
      Text.lines text = before ++ [line, ""] ∧ IsObject (shown true) members ∧
      ((line = "token: set" ↔ sent) ↔ ¬ spoiled) ∧
      (("bearerToken" ∈ members.map Prod.fst ↔ sent) ↔ ¬ spoiled) ∧
      (settings.bearerToken = some "" →
        line = "token: set" ∧ "bearerToken" ∈ members.map Prod.fst) ∧
      (settings.bearerToken = none →
        line = "token: (none)" ∧ "bearerToken" ∉ members.map Prod.fst) := by
  intro shown sent spoiled
  have hsends := mem_posts_run_promote.mp hmessage
  have hsent : sent ↔ _ :=
    hsends.authorization_ne_nil_iff (Store.load_path_congr hpath tree ▸ hload)
  have hline := settings.tokenLine_eq_set_iff
  obtain ⟨text, before, members, htext, hlines, hobject, hmember⟩ :=
    Command.views_show_token hload network
  refine ⟨text, before, settings.tokenLine, members, htext, hlines, hobject,
    isSome_agrees_iff hline hsent, isSome_agrees_iff hmember hsent, fun htoken => ?_,
    fun htoken => ?_⟩
  · have hsome : settings.bearerToken.isSome := by
      rw [htoken]
      rfl
    exact ⟨hline.mpr hsome, hmember.mpr hsome⟩
  · have hnone : ¬ settings.bearerToken.isSome := by simp [htoken]
    refine ⟨?_, fun hmem => hnone (hmember.mp hmem)⟩
    rw [Settings.tokenLine, if_neg hnone]
    rfl

/-- A promotion with a stored address and a stored token that fits into a header sends a message.
Nobody is named in its address. -/
theorem exists_post_of_stored {token : String} (hheader : Client.isHeaderText token = true) :
    let stored : Settings := { apiAddress := "http://s", bearerToken := some token }
    let tree : Tree := { entries := [(["config.json"], .file (Store.contentOf stored))] }
    let arguments : PromoteArguments :=
      { project := some "p", freight := some "f", stage := some "s" }
    let circumstances : Circumstances := { store := ⟨"config.json", 7⟩ }
    circumstances.store.load tree = .ok stored ∧
      ∃ message, message ∈ Traced.posts ((Command.promote arguments).run circumstances
        (fun _ => .silent) tree .unlimited).steps ∧ ¬ message.NamesUser := by
  intro stored tree arguments circumstances
  have hload : circumstances.store.load tree = .ok stored :=
    Store.load_of_written stored.writtenAt_alone
  have hvalidate : (arguments.options stored).validate =
      .ok { project := "p", freight := .named "f", selector := .stage "s" } := rfl
  have haddress : circumstances.server.getD stored.apiAddress ≠ "" := by
    show "http://s" ≠ ""
    decide
  have hbase : trimSlashes "http://s" = "http://s" := by decide
  -- It reaches the server that a client without the token reaches.
  have halike : Client.plain.Alike (stored.under circumstances).client :=
    ⟨hbase, rfl, rfl, Client.header_of_token { apiAddress := "http://s" } hheader⟩
  have hread := (halike.address .promoteStage).symm ▸ Client.read_address_plain .promoteStage
  refine ⟨hload, _, mem_posts_run_promote.mpr
    ((PromoteArguments.sends_iff hload hvalidate haddress).mpr
      ⟨rfl, _, Client.message_eq_ok_iff.mpr ⟨hread, halike.otherHeader, rfl⟩, nofun⟩), ?_⟩
  rintro ⟨url, hurl, huser⟩
  obtain rfl := Except.ok.inj (hread.symm.trans hurl)
  exact Bool.false_ne_true huser

/-- A token that is set is shown and sent. -/
theorem stored_token_is_shown_and_sent :
    let stored : Settings := { apiAddress := "http://s", bearerToken := some "t" }
    let tree : Tree := { entries := [(["config.json"], .file (Store.contentOf stored))] }
    let arguments : PromoteArguments :=
      { project := some "p", freight := some "f", stage := some "s" }
    let circumstances : Circumstances := { store := ⟨"config.json", 7⟩ }
    let shown (asJson : Bool) := ((Command.viewSettings asJson).run circumstances (fun _ => .silent)
      tree .unlimited).value.sink.written
    ∃ message text before members,
      message ∈ Traced.posts ((Command.promote arguments).run circumstances (fun _ => .silent)
        tree .unlimited).steps ∧
      shown false = encode text ∧ Text.lines text = before ++ ["token: set", ""] ∧
      IsObject (shown true) members ∧ "bearerToken" ∈ members.map Prod.fst ∧
      message.authorization ≠ [] := by
  intro stored tree arguments circumstances shown
  have hheader : Client.isHeaderText "t" = true := by decide
  obtain ⟨hload, message, hmessage, hnobody⟩ := exists_post_of_stored hheader
  obtain ⟨text, before, line, members, htext, hlines, hobject, hline, hmember, -⟩ :=
    shown_token_is_sent_unless_spoiled _ tree stored arguments circumstances circumstances
      .unlimited message rfl hload hmessage
  have hsound : ¬ (stored.bearerToken = some "" ∧ ¬ message.NamesUser ∨
      stored.bearerToken = none ∧ message.NamesUser) := by
    rintro (⟨hempty, -⟩ | ⟨-, hnamed⟩)
    · exact absurd hempty (by decide)
    · exact hnobody hnamed
  have hsent : message.authorization ≠ [] :=
    ((mem_posts_run_promote.mp hmessage).authorization_ne_nil_iff hload).mpr
      (.inr ⟨rfl, by decide⟩)
  obtain rfl := (hline.mpr hsound).mpr hsent
  exact ⟨message, text, before, members, hmessage, htext, hlines, hobject,
    (hmember.mpr hsound).mpr hsent, hsent⟩

/-- A token that is present but empty is shown and not sent. -/
theorem empty_token_is_shown_but_not_sent :
    let stored : Settings := { apiAddress := "http://s", bearerToken := some "" }
    let tree : Tree := { entries := [(["config.json"], .file (Store.contentOf stored))] }
    let arguments : PromoteArguments :=
      { project := some "p", freight := some "f", stage := some "s" }
    let circumstances : Circumstances := { store := ⟨"config.json", 7⟩ }
    let shown (asJson : Bool) := ((Command.viewSettings asJson).run circumstances (fun _ => .silent)
      tree .unlimited).value.sink.written
    ∃ message text before members,
      message ∈ Traced.posts ((Command.promote arguments).run circumstances (fun _ => .silent)
        tree .unlimited).steps ∧
      shown false = encode text ∧ Text.lines text = before ++ ["token: set", ""] ∧
      IsObject (shown true) members ∧ "bearerToken" ∈ members.map Prod.fst ∧
      message.authorization = [] := by
  intro stored tree arguments circumstances shown
  have hheader : Client.isHeaderText "" = true := by decide
  obtain ⟨hload, message, hmessage, hnobody⟩ := exists_post_of_stored hheader
  obtain ⟨text, before, members, htext, hlines, hobject, hmember⟩ :=
    Command.views_show_token hload fun _ => .silent
  refine ⟨message, text, before, members, hmessage, htext, hlines, hobject, hmember.mpr rfl, ?_⟩
  by_contra hsent
  rcases ((mem_posts_run_promote.mp hmessage).authorization_ne_nil_iff hload).mp hsent with
    hnamed | ⟨-, hsome⟩
  · exact hnobody hnamed
  · exact hsome rfl

end FreightPromotion
