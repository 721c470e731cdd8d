import TypeSketch.Emit.Literal
import TypeSketch.Template

/-! Stubs of hooks for a root type: one that fetches the data, and one that binds it to a form which
starts from the default values. -/

namespace TypeSketch.Emit.Hook

open Schema (Node)

def queryTemplate : String :=
  "import \x7b useQuery \x7d from \"@tanstack/react-query\";\n"
    ++ "import \x7b \x7b\x7b root_name \x7d\x7d \x7d from \"./types\";\n"
    ++ "\n"
    ++ "export function use\x7b\x7b root_name \x7d\x7d() \x7b\n"
    ++ "  return useQuery<\x7b\x7b root_name \x7d\x7d>(\x7b\n"
    ++ "    queryKey: [\"\x7b\x7b query_key \x7d\x7d\"],\n"
    ++ "    queryFn: async () => \x7b\n"
    ++ "      const response = await fetch(\"/api/\x7b\x7b query_key \x7d\x7d\");\n"
    ++ "      if (!response.ok) \x7b\n"
    ++ "        throw new Error(\"Network response was not ok\");\n"
    ++ "      \x7d\n"
    ++ "      return response.json();\n"
    ++ "    \x7d,\n"
    ++ "  \x7d);\n"
    ++ "\x7d"

def formTemplate : String :=
  "import \x7b useForm \x7d from \"react-hook-form\";\n"
    ++ "import \x7b zodResolver \x7d from \"@hookform/resolvers/zod\";\n"
    ++ "import \x7b \x7b\x7b schema_name \x7d\x7d \x7d from \"./schemas\";\n"
    ++ "import \x7b \x7b\x7b root_name \x7d\x7d \x7d from \"./types\";\n"
    ++ "\n"
    ++ "export function use\x7b\x7b root_name \x7d\x7dForm() \x7b\n"
    ++ "  return useForm<\x7b\x7b root_name \x7d\x7d>(\x7b\n"
    ++ "    resolver: zodResolver(\x7b\x7b schema_name \x7d\x7d),\n"
    ++ "    defaultValues: \x7b\x7b default_values \x7d\x7d,\n"
    ++ "  \x7d);\n"
    ++ "\x7d"

def query (rootName : String) : String :=
  Template.render [("root_name", rootName), ("query_key", Text.toLower rootName)] queryTemplate

def form (now : Instant) (rootName : String) (n : Node) : String :=
  Template.render
    [("root_name", rootName), ("schema_name", schemaName rootName),
      ("default_values", defaultLiteral now 2 n)]
    formTemplate

end TypeSketch.Emit.Hook
