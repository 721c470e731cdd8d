import TypeSketch.Emit.Hook
import TypeSketch.Emit.Zod
import TypeSketch.Proofs.Emit.Indentation
import TypeSketch.Proofs.Emit.TypeText
import TypeSketch.Proofs.Template

/-! The stub of a form. It is a template with six slots for three texts; what is put in is not read
as a template again, so sample texts may look like placeholders. -/

namespace TypeSketch.Emit

open Template (Plain Slot Slotless)
open Schema (Node)

variable {c : Char} {name rootName : String}

namespace Hook

def formModule (type constant defaults : String) : String :=
  "import \x7b useForm \x7d from \"react-hook-form\";\n"
    ++ "import \x7b zodResolver \x7d from \"@hookform/resolvers/zod\";\n"
    ++ "import \x7b " ++ constant ++ " \x7d from \"./schemas\";\n"
    ++ "import \x7b " ++ type ++ " \x7d from \"./types\";\n"
    ++ "\n"
    ++ "export function use" ++ type ++ "Form() \x7b\n"
    ++ "  return useForm<" ++ type ++ ">(\x7b\n"
    ++ "    resolver: zodResolver(" ++ constant ++ "),\n"
    ++ "    defaultValues: " ++ defaults ++ ",\n"
    ++ "  \x7d);\n"
    ++ "\x7d"

def rootSlot : Slot := { start := 'r', parts := "oot_name".toList }
def schemaSlot : Slot := { start := 's', parts := "chema_name".toList }
def defaultsSlot : Slot := { start := 'd', parts := "efault_values".toList }

def formStart : List Char :=
  ("import \x7b useForm \x7d from \"react-hook-form\";\n"
    ++ "import \x7b zodResolver \x7d from \"@hookform/resolvers/zod\";\n"
    ++ "import \x7b ").toList

def formPieces : List (Slot × List Char) :=
  [(schemaSlot, (" \x7d from \"./schemas\";\n" ++ "import \x7b ").toList),
    (rootSlot, (" \x7d from \"./types\";\n" ++ "\n" ++ "export function use").toList),
    (rootSlot, ("Form() \x7b\n" ++ "  return useForm<").toList),
    (rootSlot, (">(\x7b\n" ++ "    resolver: zodResolver(").toList),
    (schemaSlot, ("),\n" ++ "    defaultValues: ").toList),
    (defaultsSlot, (",\n" ++ "  \x7d);\n" ++ "\x7d").toList)]

theorem formTemplate_eq_source :
    formTemplate = String.ofList (Template.source formStart formPieces) := by
  decide +kernel

theorem form_eq_formModule (now : Instant) (rootName : String) (n : Node) :
    form now rootName n
      = formModule rootName (schemaName rootName) (defaultLiteral now 2 n) := by
  have hstart : Plain formStart := by decide +kernel
  have hpieces : ∀ x ∈ formPieces, Plain x.2 := by decide +kernel
  have hslotless : ∀ x ∈ formPieces, Slotless x.2 := fun x hx => (hpieces x hx).slotless
  let ctx : Template.Context :=
    [("root_name", rootName), ("schema_name", schemaName rootName),
      ("default_values", defaultLiteral now 2 n)]
  have hroot : rootSlot.shown ctx = rootName.toList := by
    rw [Slot.shown, show rootSlot.name = "root_name" by decide]
    simp [ctx, Template.Context.get?]
  have hschema : schemaSlot.shown ctx = (schemaName rootName).toList := by
    rw [Slot.shown, show schemaSlot.name = "schema_name" by decide]
    simp [ctx, Template.Context.get?, List.lookup_cons]
  have hdefaults : defaultsSlot.shown ctx = (defaultLiteral now 2 n).toList := by
    rw [Slot.shown, show defaultsSlot.name = "default_values" by decide]
    simp [ctx, Template.Context.get?, List.lookup_cons]
  change Template.render ctx formTemplate = _
  rw [formTemplate_eq_source, Template.render_source ctx hstart.slotless hslotless,
    ← String.toList_inj, String.toList_ofList]
  unfold formModule formStart formPieces
  simp only [Template.filled, List.flatMap_cons, List.flatMap_nil, hroot,
    hschema, hdefaults, String.toList_append, List.append_assoc, List.append_nil]

end Hook

theorem toNat_lt_of_isNameStart (hc : isNameStart c = true) : c.toNat < 128 := by
  simp only [isNameStart, Bool.or_eq_true, beq_iff_eq] at hc
  rcases hc with (halpha | rfl) | rfl
  · exact toNat_lt_of_isAlphanum (isAlphanum_of_isAlpha halpha)
  · decide
  · decide

theorem lower_of_isNameStart (hc : isNameStart c = true) :
    Text.lower c = [c.toLower] ∧ isNameStart c.toLower = true := by
  let P (c : Char) : Prop := isNameStart c = true →
    Text.lower c = [c.toLower] ∧ isNameStart c.toLower = true
  have hall : ∀ n < 128, P (Char.ofNat n) := by decide +kernel
  exact forall_ascii hall (toNat_lt_of_isNameStart hc) hc

theorem isIdentifier_schemaName (hroot : isIdentifier rootName = true) :
    isIdentifier (schemaName rootName) = true := by
  obtain ⟨c, cs, heq, hc, hcs⟩ := exists_head_of_isIdentifier hroot
  obtain ⟨hlower, hstart⟩ := lower_of_isNameStart hc
  have htext : (schemaName rootName).toList = c.toLower :: (cs ++ "Schema".toList) := by
    simp [schemaName, lowerFirst, heq, hlower]
  have hparts : (cs ++ "Schema".toList).all isNamePart = true := by
    rw [List.all_append, List.all_eq_true.2 hcs]
    rfl
  rw [isIdentifier, htext]
  exact Bool.and_eq_true_iff.2 ⟨hstart, hparts⟩

def nameAfter? (start : String) (text : String) : Option String :=
  ((text.toList.dropPrefix? start.toList).bind readBare).map Prod.fst

theorem nameAfter?_append (start : String) (hname : isIdentifier name = true)
    (hc : isNamePart c = false) {text : String} {r : List Char}
    (htext : text.toList = start.toList ++ (name.toList ++ c :: r)) :
    nameAfter? start text = some name := by
  rw [nameAfter?, htext, List.dropPrefix?_append_of_beq _ (beq_self_eq_true _), Option.bind_some,
    readBare_append hname hc]
  rfl

def Zod.exported? (text : String) : Option String :=
  nameAfter? "import \x7b z \x7d from \"zod\";\n\nexport const " text

theorem Zod.exported?_text (camelCase : Bool) (hname : isIdentifier name = true) (n : Node) :
    exported? (Zod.text camelCase name n) = some name := by
  have htext : (Zod.text camelCase name n).toList
      = "import \x7b z \x7d from \"zod\";\n\nexport const ".toList
        ++ (name.toList ++ ' ' :: ("= ".toList ++ ((expression camelCase 0 n).toList ++ [';']))) := by
    unfold Zod.text
    simp
  exact nameAfter?_append _ hname (by decide) htext

def TypeScript.declared? (text : String) : Option String :=
  (nameAfter? "export interface " text).or (nameAfter? "export type " text)

theorem TypeScript.declared?_text {d : TypeScript.Declaration}
    (hname : isIdentifier d.name = true) : declared? d.text = some d.name := by
  have hrecord : ∀ {r}, d.text.toList = "export interface ".toList ++ (d.name.toList ++ ' ' :: r) →
      declared? d.text = some d.name := fun htext => by
    rw [declared?, nameAfter?_append _ hname (by decide) htext, Option.some_or]
  have htype : ∀ {r}, d.text.toList = "export type ".toList ++ (d.name.toList ++ ' ' :: r) →
      declared? d.text = some d.name := fun htext => by
    have hinterface : nameAfter? "export interface " d.text = none := by
      rw [nameAfter?, htext]
      rfl
    rw [declared?, hinterface, nameAfter?_append _ hname (by decide) htext, Option.none_or]
  match d with
  | .record .interface name ms =>
    exact hrecord (r := (blockText 0 ms).toList) (by rw [text_interface]; simp [Declaration.name])
  | .record .alias name ms =>
    exact htype (r := "= ".toList ++ ((blockText 0 ms).toList ++ [';']))
      (by rw [text_type]; simp [Declaration.name])
  | .alias name type =>
    exact htype (r := "= ".toList ++ ((type.textAt 0).toList ++ [';']))
      (by rw [text_alias]; simp [Declaration.name])

end TypeSketch.Emit
