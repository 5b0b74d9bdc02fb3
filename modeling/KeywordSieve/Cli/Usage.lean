import KeywordSieve.Cli.Arguments

/-!
What the command says about itself: how it is called, and what its options are for.
-/
namespace KeywordSieve.Cli

open Text

def program : Text := "feedfilter"

def usage : List Text :=
  ["usage: feedfilter [-h] --items ITEMS [--config CONFIG] [--query QUERY]",
    "                  [--explain]",
    "                  [--log-level \x7bDEBUG,INFO,WARNING,ERROR,CRITICAL\x7d]"]

def description : List Text :=
  ["",
    "Filter scraped feed items with a keyword query",
    "",
    "options:",
    "  -h, --help            show this help message and exit",
    "  --items ITEMS         YAML or JSON file with the candidate items",
    "  --config CONFIG       Path to configuration file (default: config.yaml if",
    "                        present)",
    "  --query QUERY         Keyword query (overrides config and environment)",
    "  --explain             Write every item with the reason it was kept or dropped",
    "  --log-level \x7bDEBUG,INFO,WARNING,ERROR,CRITICAL\x7d",
    "                        Log level (overrides config and environment)",
    "",
    "Query example: flood,\"traffic jam\",-\"canvey",
    "island\",-chelmsford,except(\"museum\",\"country park\")"]

def help : List Text := usage ++ description

/-- What is said about words that cannot be understood. -/
def UsageError.lines (e : UsageError) : List Text :=
  usage ++ [program ++ (": error: " ++ e.message)]

end KeywordSieve.Cli
