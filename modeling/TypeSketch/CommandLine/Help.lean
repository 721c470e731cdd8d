import TypeSketch.CommandLine.Words
import TypeSketch.Server

/-! What is shown in place of a run. -/

namespace TypeSketch.CommandLine

def programName : String := "typesketch"

def helpText : String :=
  "Infer schemas from sample JSON and generate code from them\n"
    ++ "\n"
    ++ "Usage: typesketch [OPTIONS] <COMMAND>\n"
    ++ "\n"
    ++ "Commands:\n"
    ++ "  generate <INPUT> [-t <TARGET>]           all, typescript, zod, query, form or defaults\n"
    ++ "  infer <INPUT>                            print the schema\n"
    ++ "  add <INPUT> <PATH> <KEY> [VALUE] [-i]    add a member or an item\n"
    ++ "  remove <INPUT> <PATH> [-i]               remove a value\n"
    ++ "  set <INPUT> <PATH> <VALUE> [-i]          replace a value\n"
    ++ "  modify <ID> [--clear] [--toggle-optional] [--optional <BOOL>]\n"
    ++ "         [--rename <KEY>] [--type <TYPE>]  change the wishes for a node\n"
    ++ "  serve [-p <PORT>]                        answer HTTP requests\n"
    ++ "  help [COMMAND]                           print this text\n"
    ++ "\n"
    ++ "Options:\n"
    ++ "  -c, --config <FILE>         settings in YAML\n"
    ++ "  -m, --mods <FILE>           wishes for nodes in JSON\n"
    ++ "      --root-name <NAME>      name of the root type\n"
    ++ "      --declaration <WORD>    interface or type\n"
    ++ "      --separate-nested       declare nested objects on their own\n"
    ++ "      --camel-case            turn snake_case into camelCase\n"
    ++ "  -i, --in-place              write the document back\n"
    ++ "  -v, --verbose               say more\n"
    ++ "  -h, --help                  print this text\n"
    ++ "  -V, --version               print the version"

def Usage.text : Usage → String
  | .help | .nothing => helpText
  | .version => programName ++ " " ++ Server.version
  | .malformed => "error: these are no arguments that " ++ programName ++ " understands; try --help"

end TypeSketch.CommandLine
