/-!
# Command lines for a shell

An argument vector as one line that a POSIX shell splits into the same arguments.
-/
namespace Montage.Text

/-- The characters that mean themselves to a shell. -/
def isShellSafe (c : Char) : Bool :=
  c.isAlphanum || "@%+=:,./-_".toList.contains c

/-- One argument: in single quotes unless all its characters are safe. A single quote inside
leaves the quotes and is itself put in double quotes. -/
def shellWord (s : String) : String :=
  let cs := s.toList
  if cs.isEmpty then "''"
  else if cs.all isShellSafe then s
  else
    let body := cs.flatMap fun c => if c = '\'' then "'\"'\"'".toList else [c]
    String.ofList ('\'' :: body ++ ['\''])

/-- The arguments of a command on one line. -/
def shellLine (args : List String) : String := " ".intercalate (args.map shellWord)

end Montage.Text
