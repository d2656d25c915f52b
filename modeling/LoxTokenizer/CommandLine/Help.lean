/-!
# What the program says about itself

The version, and the help in a short and a long form, line by line.
-/

namespace LoxTokenizer.CommandLine

/-- The name and the version of the program. -/
def versionLines : List String :=
  ["lox 0.1.0"]

/-- The short help. -/
def shortHelp : List String :=
  ["Lox scanner CLI: tokenize a file or an interactive prompt",
   "",
   "Usage: lox [OPTIONS] [FILE]",
   "",
   "Arguments:",
   "  [FILE]  Lox source file. Starts the interactive prompt when omitted",
   "",
   "Options:",
   "      --format <FORMAT>  Output format (default from Lox.toml, else " ++
     "text) [possible values: text, json, debug]",
   "      --no-trivia        Do not print whitespace and comment tokens",
   "      --eof              Append the EOF token",
   "      --config <CONFIG>  Path to a Lox.toml (default: searched upward from the source file)",
   "  -q, --quiet            Suppress the summary line",
   "  -h, --help             Print help (see more with '--help')",
   "  -V, --version          Print version"]

/-- The long help. -/
def longHelp : List String :=
  ["Lox scanner.",
   "",
   "Tokenizes a Lox source file and prints the token stream. Without a",
   "file argument, starts an interactive prompt that scans one line at a time.",
   "",
   "Examples:",
   "  lox hello.lox                  Print tokens, one per line",
   "  lox hello.lox --format json    Print tokens as a JSON array",
   "  lox hello.lox --no-trivia      Hide whitespace and comment tokens",
   "  lox                            Start the prompt",
   "",
   "Usage: lox [OPTIONS] [FILE]",
   "",
   "Arguments:",
   "  [FILE]",
   "          Lox source file. Starts the interactive prompt when omitted",
   "",
   "Options:",
   "      --format <FORMAT>",
   "          Output format (default from Lox.toml, else text)",
   "          ",
   "          [possible values: text, json, debug]",
   "",
   "      --no-trivia",
   "          Do not print whitespace and comment tokens",
   "",
   "      --eof",
   "          Append the EOF token",
   "",
   "      --config <CONFIG>",
   "          Path to a Lox.toml (default: searched upward from the source file)",
   "",
   "  -q, --quiet",
   "          Suppress the summary line",
   "",
   "  -h, --help",
   "          Print help (see a summary with '-h')",
   "",
   "  -V, --version",
   "          Print version"]

/-- Lines as a text. -/
def textOfLines (lines : List String) : String :=
  String.join (lines.map fun line => line ++ "\n")

/-- The version as a text. -/
def versionText : String :=
  textOfLines versionLines

/-- The help in one of its forms. -/
def helpText (long : Bool) : String :=
  textOfLines (if long then longHelp else shortHelp)

end LoxTokenizer.CommandLine
