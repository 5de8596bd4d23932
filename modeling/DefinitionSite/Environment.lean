/-! The surroundings of the program that it does not choose: its environment variables and the
platform. -/
namespace DefinitionSite

/-- Environment variables, of which the first binding of a name counts, and the home directory that
the user's account has, if there is an account. -/
structure Environment where
  bindings : List (String × String)
  accountHome : Option String
  deriving Repr, Inhabited

namespace Environment

def get? (env : Environment) (name : String) : Option String :=
  (env.bindings.find? (·.1 == name)).map (·.2)

/-- The value of a variable that is set to something. -/
def given? (env : Environment) (name : String) : Option String :=
  (env.get? name).filter (!·.isEmpty)

def has (env : Environment) (name : String) : Bool := (env.given? name).isSome

end Environment

inductive Platform where
  | posix
  | windows
  deriving Repr, DecidableEq

end DefinitionSite
