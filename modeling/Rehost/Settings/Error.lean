import Rehost.Text.Basic

/-! What can be wrong with settings. -/
namespace Rehost

inductive SettingsError where
  /-- The names, in order. -/
  | unknownKeys (names : List Text)
  | nullPath (key : Text)
  | notAPath (key kind : Text)
  | emptyPath (key : Text)
  | badOrigin
  | notAMapping (file : Text)
  | malformed (file detail : Text)
  | rejected (reason : Text)
deriving DecidableEq, Repr

def SettingsError.message : SettingsError → Text
  | unknownKeys names => "unknown configuration keys: " ++ Text.join ", " names
  | nullPath key => key ++ " must be a path, not null"
  | notAPath key kind => key ++ " must be a path, not " ++ kind
  | emptyPath key => key ++ " must not be empty"
  | badOrigin => "origin must be a non-empty string"
  | notAMapping file => "Expected mapping at root of config: " ++ file
  | rejected reason => reason
  | malformed file detail => "invalid YAML in " ++ file ++ ": " ++ detail

end Rehost
