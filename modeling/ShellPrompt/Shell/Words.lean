import ShellPrompt.Text.Split

/-!
Words of a shell's command line. A word of harmless characters stands for itself; any other is put
in single quotes, where every character but the quote itself is literal.
-/

namespace ShellPrompt.Shell

/-- Whether a character needs no quoting. -/
def isHarmless (c : Char) : Bool :=
  c.isAlphanum || ['_', '@', '%', '+', '=', ':', ',', '.', '/', '-'].contains c

/-- A character inside single quotes; a quote is closed, written in double quotes, and opened
again. -/
def quotedChar (c : Char) : List Char :=
  if c = '\'' then ['\'', '"', '\'', '"', '\''] else [c]

/-- A word of a command line that stands for the given characters. -/
def quoteChars (word : List Char) : List Char :=
  if word = [] then ['\'', '\'']
  else if word.all isHarmless then word
  else '\'' :: word.flatMap quotedChar ++ ['\'']

/-- A word of a command line that stands for a text. -/
def quote (word : String) : String := String.ofList (quoteChars word.toList)

/-- A command line of words. -/
def commandLine (words : List String) : String := Text.join " " (words.map quote)

end ShellPrompt.Shell
