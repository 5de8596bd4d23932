import DefinitionSite.Search
import DefinitionSite.SourceFiles

/-! The command line that starts the external engine, and how it is shown. -/
namespace DefinitionSite.Ripgrep

/-- The arguments that make the engine skip directories: each name once, in order. -/
def skipArgs (skipDirs : List String) : List String :=
  (sortNames skipDirs.eraseDups).flatMap fun name => ["--glob", "!" ++ name]

/-- The arguments of one search, the program's name first. A buffer is handed over on standard
input; a directory is searched in path order and without reading ignore files. -/
def args (executable : String) (pattern : Text) (source : Source) : List String :=
  [executable, "--no-config", "--json", "--multiline", "--regexp", String.ofList pattern] ++
    match source with
    | .buffer _ => ["-"]
    | .directory root globs skipDirs =>
      ["--sort", "path", "--no-ignore"] ++ globs.flatMap (fun glob => ["--glob", glob]) ++
        skipArgs skipDirs ++ [root.toString]

/-- The characters of an argument with its double quotes escaped; `slashes` backslashes were read
and not yet written. Backslashes are doubled before a quote, and at the end if a quote follows. -/
def shownChars (closing : Bool) (slashes : Nat) : Text → Text
  | [] => List.replicate (if closing then 2 * slashes else slashes) '\\'
  | '\\' :: rest => shownChars closing (slashes + 1) rest
  | '"' :: rest => List.replicate (2 * slashes) '\\' ++ ['\\', '"'] ++ shownChars closing 0 rest
  | c :: rest => List.replicate slashes '\\' ++ c :: shownChars closing 0 rest

def shownArg (arg : Text) : Text :=
  if arg.isEmpty || arg.any (fun c => c == ' ' || c == '\t') then
    ['"'] ++ shownChars true 0 arg ++ ['"']
  else shownChars false 0 arg

def shown (args : List String) : String :=
  " ".intercalate (args.map fun arg => String.ofList (shownArg arg.toList))

end DefinitionSite.Ripgrep
