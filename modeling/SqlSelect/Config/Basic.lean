import SqlSelect.Rename.Settings
/-!
The configuration of the builder, and what can go wrong with it.
-/

namespace SqlSelect

structure Config where
  rename : RenameSettings
deriving DecidableEq, Repr

/-- Why a configuration cannot be read, written or installed. What a reader of TOML or a file system has
to say about its own failures is not kept. -/
inductive ConfigError where
  | unreadable
  | alreadyExists
  | template (e : TemplateError)
  | io
  | document
  | unexpectedItem (name : String)
deriving DecidableEq, Repr

namespace Config

def standard : Config :=
  ⟨.standard⟩

def resolve (c : Config) : Config × Except ConfigError Unit :=
  match c.rename.resolve with
  | (rename, .ok ()) => (⟨rename⟩, .ok ())
  | (rename, .error e) => (⟨rename⟩, .error (.template e))

def resolved (c : Config) : Except ConfigError Config :=
  match c.resolve with
  | (c, .ok ()) => .ok c
  | (_, .error e) => .error e

end Config

namespace ConfigError

/-- The text of an error; those of other programs' making have none here. -/
def message? : ConfigError → Option String
  | alreadyExists => some "Configuration file already exists"
  | template (.withoutCounter text) =>
    some ("Alias template `" ++ text ++ "` does not contain the `" ++
      RenameSettings.counterPlaceholder ++ "` placeholder")
  | template (.notIdentifier text expanded) =>
    some ("Alias template `" ++ text ++ "` expands to `" ++ expanded ++
      "`, which is not an SQL identifier")
  | unexpectedItem name => some ("Encountered unexpected TOML item: " ++ name)
  | unreadable => none
  | io => none
  | document => none

def code : ConfigError → String
  | unreadable => "tessel_config::toml_deserialize"
  | alreadyExists => "tessel_config::already_exists"
  | template (.withoutCounter _) => "tessel_config::alias_template_missing_counter"
  | template (.notIdentifier _ _) => "tessel_config::invalid_alias_template"
  | io => "tessel_config::io"
  | document => "tessel_config::toml"
  | unexpectedItem _ => "tessel_config::unexpected_toml_item"

def help? : ConfigError → Option String
  | unreadable => some "Check your config.toml syntax and structure"
  | alreadyExists => some "Remove the existing config file or point TESSEL_CONFIG somewhere else"
  | template (.withoutCounter _) =>
    some ("Every generated alias must be unique, e.g. \"" ++ RenameSettings.defaultTemplate ++ "\"")
  | template (.notIdentifier _ _) =>
    some "Use only letters, digits and underscores, and do not start with a digit"
  | io => none
  | document => none
  | unexpectedItem _ => none

end ConfigError

end SqlSelect
