import FreightPromotion.Proofs.Members
import FreightPromotion.Settings

/-!
# Settings and their document

The document of settings leaves out what is absent and what is not set, and reading
puts the same back (`reads_document`).  A token or a project that is present but empty
has a member of its own, and so it is not mistaken for an absent one.
-/

namespace FreightPromotion.Settings

open FreightPromotion.Json (Arrangement Stores deepest)
open FreightPromotion.Text (encode)

/-! ## The members of the document -/

/-- The members of the document. -/
def members (settings : Settings) : List Json.Member :=
  textMember "apiAddress" settings.apiAddress ++
    optionalMember "bearerToken" (settings.bearerToken.map .text) ++
    optionalMember "project" (settings.project.map .text) ++
    (if settings.insecureSkipTlsVerify then [("insecureSkipTlsVerify", .bool true)] else [])

/-- The keys come in the order of the fields. -/
theorem keys_members (settings : Settings) :
    (settings.members.map Prod.fst).Sublist (fields.map (·.name)) := by
  simp only [members, List.map_append]
  exact (((keys_textMember _ _).append (keys_optionalMember _ _)).append
    (keys_optionalMember _ _)).append (keys_flagMember _ _ _)

/-- There is a member for the token exactly if there is a token. -/
theorem mem_keys_bearerToken {settings : Settings} :
    "bearerToken" ∈ settings.members.map Prod.fst ↔ settings.bearerToken.isSome := by
  have haddress : "bearerToken" ∉ (textMember "apiAddress" settings.apiAddress).map Prod.fst :=
    fun hkey => absurd ((keys_textMember _ _).subset hkey) (by decide)
  have hflag (flag : Bool) (value : Json.Value) : "bearerToken" ∉
      ((if flag then [("insecureSkipTlsVerify", value)] else []).map Prod.fst) :=
    fun hkey => absurd ((keys_flagMember _ _ _).subset hkey) (by decide)
  simp only [members, List.map_append, List.mem_append, haddress, hflag, mem_keys_optionalMember,
    Option.isSome_map]
  simp

/-! ## Reading -/

theorem fields_agree : ∀ field ∈ fields, field.Agrees := by
  simp [fields, Json.Field.of_agrees, Json.agrees_readOptional, Json.agrees_readText,
    Json.agrees_readFlag]

theorem fields_nodup : (fields.map (·.name)).Nodup := by
  decide

variable {arrangement : Arrangement} {nesting depth : Nat}

/-- The members turn the settings of a new user into these settings, whichever are left out. -/
theorem stores_members (settings : Settings) :
    Stores arrangement fields nesting depth settings.members {} settings :=
  (((stores_textMember (fun (settings : Settings) value => { settings with apiAddress := value })
      settings.apiAddress rfl rfl).append
    (stores_optionalText
      (fun (settings : Settings) value => { settings with bearerToken := value })
      settings.bearerToken rfl rfl)).append
    (stores_optionalText (fun (settings : Settings) value => { settings with project := value })
      settings.project rfl rfl)).append
    (stores_flagMember
      (fun (settings : Settings) value => { settings with insecureSkipTlsVerify := value })
      settings.insecureSkipTlsVerify rfl rfl)

/-- Settings are read back from their document. -/
theorem reads_document (settings : Settings) :
    arrangement.Reads (read (nesting + 1)) depth settings.document settings :=
  arrangement.reads_record fields_agree fields_nodup ((keys_members settings).nodup fields_nodup)
    (stores_members settings)

/-- Reading undoes the printing of settings. -/
theorem read_pretty_document (settings : Settings) :
    Json.read read (encode settings.document.pretty) = .ok settings := by
  have hreads : Arrangement.indented.Reads (read deepest) 0 settings.document settings :=
    reads_document settings
  exact hreads.read_eq

end FreightPromotion.Settings
