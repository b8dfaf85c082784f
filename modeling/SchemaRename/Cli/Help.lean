import SchemaRename.Cli.Arguments

/-!
# Help

The pages that explain the program at the terminal.

## Main definitions

* `versionText`: The name and the version of the program.
* `HelpPage.text`: A page of help.
-/

namespace SchemaRename.Cli

/-- The name and the version of the program. -/
def versionText : String :=
  "modelshift 0.4.2\n"

/-- Lines, each with a line feed. -/
def lines (ls : List String) : String :=
  String.join (ls.map (· ++ "\n"))

/-- A page of help. -/
def HelpPage.text : HelpPage → String
  | .program => lines
    [ "Rename objects and fields across a Salesforce metadata project",
      "",
      "Usage: modelshift <COMMAND>",
      "",
      "Commands:",
      "  migrate  Object model migration",
      "  help     Print this message or the help of the given subcommand(s)",
      "",
      "Options:",
      "  -h, --help     Print help",
      "  -V, --version  Print version" ]
  | .migrate => lines
    [ "Object model migration",
      "",
      "Usage: modelshift migrate <COMMAND>",
      "",
      "Commands:",
      "  run      Rename objects and fields across a metadata project",
      "  rules    Show the ordered substitution rules compiled for one fetch expression",
      "  catalog  Show the boundary templates resolved for one fetch expression",
      "  help     Print this message or the help of the given subcommand(s)",
      "",
      "Options:",
      "  -h, --help  Print help" ]
  | .run => lines
    [ "Rename objects and fields across a metadata project",
      "",
      "Usage: modelshift migrate run [OPTIONS] --config <CONFIG>",
      "",
      "Options:",
      "  -c, --config <CONFIG>",
      "          JSON rename map",
      "  -i, --input <INPUT>",
      "          Project folder to migrate [default: .]",
      "  -f, --fetch <FETCH>",
      "          Comma-separated fetch expressions (an empty string selects none)",
      "  -d, --delete-files <DELETE_FILES>",
      "          Delete files still tied to the deprecated prefix [default: true] [possible values: true,",
      "          false]",
      "  -s, --copy-project <COPY_PROJECT>",
      "          Copy the configured project folder over the result [default: true] [possible values: true,",
      "          false]",
      "      --dry-run",
      "          Report what would change without writing anything",
      "  -h, --help",
      "          Print help" ]
  | .rules => lines
    [ "Show the ordered substitution rules compiled for one fetch expression",
      "",
      "Usage: modelshift migrate rules --config <CONFIG> --fetch <FETCH>",
      "",
      "Options:",
      "  -c, --config <CONFIG>  JSON rename map",
      "  -f, --fetch <FETCH>    Fetch expression the rules are resolved for",
      "  -h, --help             Print help" ]
  | .catalog => lines
    [ "Show the boundary templates resolved for one fetch expression",
      "",
      "Usage: modelshift migrate catalog --config <CONFIG> --fetch <FETCH>",
      "",
      "Options:",
      "  -c, --config <CONFIG>  JSON rename map",
      "  -f, --fetch <FETCH>    Fetch expression the templates are resolved for",
      "  -h, --help             Print help" ]

end SchemaRename.Cli
