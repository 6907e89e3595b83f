import RequestBoard.Environment

/-!
# Where the configuration file is

A path on the command line comes first, then an environment variable, then the file
`wmstats/config.toml` in the platform's configuration directory.
-/

namespace RequestBoard.Config

/-- The environment variable that names the configuration file. -/
def pathVariable : String := "WMSTATS_CONFIG"

/-- The directory for the configuration of a user's programs: the one that a variable names with an
absolute path, or else one below the home directory. -/
def directory? (environment : Environment) : Option FilePath :=
  ((environment.find? "XDG_CONFIG_HOME").filter FilePath.isAbsolute).or
    (environment.home?.map (·.join ".config"))

/-- The file in the platform's configuration directory. -/
def standardPath? (environment : Environment) : Option FilePath :=
  (directory? environment).map fun directory => (directory.join "wmstats").join "config.toml"

/-- The path of the configuration file.  A variable counts only if it is set to some text. -/
def locate? (argument : Option FilePath) (variableName : String) (environment : Environment) :
    Option FilePath :=
  let named := (environment.find? variableName).filter fun path =>
    !path.isEmpty && (Utf8.decode? path).isSome
  (argument.or named).or (standardPath? environment)

end RequestBoard.Config
