import ShellPrompt.Text.Literal

/-!
Shells, and what their prompts expand. Bash expands `$`, backticks and backslashes in a prompt, Zsh
what follows a `%`; computed text is escaped so that it shows as it is. An escape sequence of the
terminal is put between marks that tell the shell's line editor that it takes no room.
-/

namespace ShellPrompt

/-- The shells that a prompt can be drawn for. -/
inductive Shell where
  | bash | zsh
deriving DecidableEq, Repr

namespace Shell

/-- The shells. -/
def all : List Shell := [bash, zsh]

/-- The name of a shell. -/
def name : Shell → String
  | bash => "bash"
  | zsh => "zsh"

/-- The shell of a name. -/
def ofName? (name : String) : Option Shell := all.find? (·.name = name)

/-- What is said of a name that no shell has. -/
def unknownMessage (name : String) : String := Text.quoted name ++ " is not a valid Shell"

/-- Marks an escape sequence as taking no room. -/
def wrap (shell : Shell) (sequence : String) : String :=
  if sequence = "" then ""
  else match shell with
    | bash => "\\[" ++ sequence ++ "\\]"
    | zsh => "%\x7b" ++ sequence ++ "%\x7d"

/-- Replaces a character by a text. -/
def replaceChar (c : Char) (replacement : List Char) (text : List Char) : List Char :=
  text.flatMap fun d => if d = c then replacement else [d]

/-- Escapes computed text. In Bash the backslashes are doubled before others are put in. -/
def escape (shell : Shell) (text : String) : String :=
  String.ofList <| match shell with
    | bash => replaceChar '\x60' ['\\', '\x60'] <|
        replaceChar '$' ['\\', '$'] <| replaceChar '\\' ['\\', '\\'] text.toList
    | zsh => replaceChar '%' ['%', '%'] text.toList

end Shell

end ShellPrompt
