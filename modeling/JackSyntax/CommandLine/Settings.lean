import JackSyntax.Artifact
import JackSyntax.CommandLine.Arguments
import JackSyntax.CommandLine.Breakdown
import JackSyntax.Toml.Document

/-!
# Settings

What a run is to do, from three sources: built-in values, a configuration file and the arguments,
each of which overrides those before it. The configuration file is the one that is named, or one
beside the sources; it need not be there.
-/

namespace JackSyntax

/-- What a run is to do. -/
structure Settings where
  /-- The source, or the directory of the sources. -/
  source : Path
  /-- Which artifacts there are and where they go. -/
  artifacts : ArtifactOptions
  /-- Whether tokens and events are dumped. -/
  debug : Bool
  /-- Whether written files are reported. -/
  verbose : Bool
deriving DecidableEq, Repr

/-- A setting of the wrong kind. -/
inductive SettingFault where
  /-- The value under the name is no table. -/
  | notTable (name : String)
  /-- The limit on tokens in the configuration file is no positive integer. -/
  | configuredMaxTokens
  /-- The limit on tokens in the arguments is not positive. -/
  | givenMaxTokens
  /-- The wish for listings is no truth value. -/
  | configuredTokens
deriving DecidableEq, Repr

/-- The wording of the fault. -/
def SettingFault.message : SettingFault → String
  | notTable name => "[" ++ name ++ "] must be a table"
  | configuredMaxTokens => "analyzer.max_tokens must be a positive integer"
  | givenMaxTokens => "--max-tokens must be a positive integer"
  | configuredTokens => "analyzer.tokens must be true or false"

/-- Why there are no settings. -/
inductive SettingsError where
  /-- A setting is of the wrong kind. -/
  | fault (f : SettingFault)
  /-- The configuration file does not follow its format. -/
  | malformed
  /-- A failed operation on files. -/
  | file (e : FileError)
  /-- What is not reported. -/
  | breakdown (b : Breakdown)
deriving DecidableEq, Repr

/-- The name of a configuration file beside the sources. -/
def configName : String := "jackanalyzer.toml"

/-- The table in the configuration file at the path, empty if there is no file. -/
def loadConfig (s : Store) (p : Path) : Except SettingsError Toml.Table :=
  match s.at? p with
  | .error e => .error (.file e)
  | .ok (some (.file bytes)) =>
    match Utf8.decode bytes with
    | .error e => .error (.breakdown (.encoding e))
    | .ok text =>
      match Toml.document text with
      | .error .malformed => .error .malformed
      | .error (.digits e) => .error (.breakdown (.digits e))
      | .ok table => .ok table
  | .ok _ => .ok []

/-- The table under the name, empty if there is none. -/
def section? (config : Toml.Table) (name : String) : Except SettingsError Toml.Table :=
  match config.lookup name with
  | none => .ok []
  | some (.table entries) => .ok entries
  | some _ => .error (.fault (.notTable name))

/-- The limit on tokens in the configuration file. -/
def configuredLimit : Option Toml → Except SettingsError Int
  | none => .ok ({} : ArtifactOptions).maxTokens
  | some (.integer n) => if n ≤ 0 then .error (.fault .configuredMaxTokens) else .ok n
  | some _ => .error (.fault .configuredMaxTokens)

/-- The limit on tokens. Both sources are checked, and the arguments prevail. -/
def maxTokensSetting (configured : Option Toml) (given : TokenLimit) : Except SettingsError Int := do
  -- A fault in the file is told even where the arguments would prevail.
  let base ← configuredLimit configured
  match given with
  | .absent => return base
  | .valueless => .error (.breakdown .valuelessLimit)
  | .value n => if n ≤ 0 then .error (.fault .givenMaxTokens) else return n

/-- Whether there are listings: if the configuration file or the arguments ask for them. -/
def writeTokensSetting (configured : Option Toml) (given : Bool) : Except SettingsError Bool :=
  match configured with
  | none => .ok given
  | some (.boolean b) => .ok (b || given)
  | some _ => .error (.fault .configuredTokens)

/-- The text of a value in the configuration file, and another text if there is none. -/
def textSetting (configured : Option Toml) (default : String) : Except SettingsError String :=
  match configured with
  | none => .ok default
  | some value => value.text.mapError fun e ↦ .breakdown (.digits e)

/-- The text without dots at its start. -/
def withoutLeadingDots (text : String) : String :=
  String.ofList (text.toList.dropWhile (· == '.'))

/-- Settings by the configuration and the arguments. -/
def mergeSettings (config : Toml.Table) (a : Arguments) (outputDir : Option Path) :
    Except SettingsError Settings := do
  let builtIn : ArtifactOptions := {}
  let analyzer ← section? config "analyzer"
  let output ← section? config "output"
  let maxTokens ← maxTokensSetting (analyzer.lookup "max_tokens") a.maxTokens
  let writeTokens ← writeTokensSetting (analyzer.lookup "tokens") a.tokens
  let extension ← textSetting (output.lookup "extension") builtIn.extension
  let tokenSuffix ← textSetting (output.lookup "token_suffix") builtIn.tokenSuffix
  return {
    source := .ofString a.source
    artifacts := {
      outputDir, tokenSuffix, writeTokens, maxTokens
      extension := withoutLeadingDots extension }
    debug := a.debug
    verbose := a.verbose }

/-- The path that an argument writes. An empty argument counts as none. -/
def pathArgument? (text : Option String) : Option Path :=
  (text.filter (· != "")).map .ofString

/-- What a run with the arguments is to do. -/
def resolveSettings (s : Store) (a : Arguments) : Except SettingsError Settings := do
  let source := Path.ofString a.source
  let isDirectory ← (s.isDirectory source).mapError .file
  let sourceDir := if isDirectory then source else source.parent
  let config ← loadConfig s ((pathArgument? a.config).getD (sourceDir.child configName))
  mergeSettings config a (pathArgument? a.outputDir)

end JackSyntax
