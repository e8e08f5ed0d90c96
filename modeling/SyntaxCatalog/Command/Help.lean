import SyntaxCatalog.Command.Arguments

/-! Help pages. -/
namespace SyntaxCatalog.Command

def Page.lines : Page → List String
  | .overview => [
      "Generate quoter parameter names from a syntax tree descriptor",
      "",
      "Usage: paramgen [COMMAND]",
      "",
      "Commands:",
      "  generate  Regenerate parameter-names.json (the default command)",
      "  lookup    Print the parameter names of one node",
      "  help      Print this message or the help of the given subcommand(s)",
      "",
      "Options:",
      "  -h, --help  Print help"]
  | .generate => [
      "Regenerate parameter-names.json (the default command)",
      "",
      "Usage: paramgen generate [OPTIONS]",
      "",
      "Options:",
      "  -c, --config <CONFIG>          paramgen.toml; relative paths inside it resolve against its directory",
      "  -C, --base-dir <BASE_DIR>      Directory that relative paths resolve against",
      "      --variant <VARIANT>        Default set of output destinations [possible values: main, main-and-test]",
      "  -d, --descriptor <DESCRIPTOR>  Syntax tree descriptor",
      "  -o, --output <OUTPUTS>         Output file (repeatable); replaces the variant's outputs",
      "      --pretty                   Indent the generated JSON",
      "      --stdout                   Print the map instead of writing files",
      "  -h, --help                     Print help"]
  | .lookup => [
      "Print the parameter names of one node",
      "",
      "Usage: paramgen lookup <MAP> <NODE>",
      "",
      "Arguments:",
      "  <MAP>   Generated parameter-names.json",
      "  <NODE>  Node name (e.g. IfElseStatementNode)",
      "",
      "Options:",
      "  -h, --help  Print help"]
  | .help => [
      "Print this message or the help of the given subcommand(s)",
      "",
      "Usage: paramgen help [COMMAND]...",
      "",
      "Arguments:",
      "  [COMMAND]...  Print help for the subcommand(s)"]

def Page.text (page : Page) : String := String.join (page.lines.map (· ++ "\n"))

end SyntaxCatalog.Command
