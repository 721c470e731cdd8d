import TypeSketch.Proofs.Emit.Hook
import TypeSketch.Proofs.Session
import TypeSketch.Session.Artifacts

/-! The texts that are generated from one session. They are parts of one program: the stub of the
form refers to the type and to the validator by the names under which these are declared, and starts
from the default values. -/

namespace TypeSketch.Session

open Emit (deepened isIdentifier)
open Emit.Hook (formModule)
open Emit.TypeScript (Declaration declarations declared?)
open Emit.Zod (exported?)
open Json (Value)

variable {s : Session} {settings : Settings} {d : Value}

theorem render_of_read (now : Instant) (settings : Settings) (hd : Value.read s.json = .ok d) :
    s.render now settings
      = .ok (.ofTree now settings (s.overlay.apply (Schema.infer d))) := by
  rw [render, tree_of_read hd]
  rfl

/-- The generated texts fit together. The stub of the form is its template with the default values
put in as they are, but for the four blanks after each line break; it imports and uses the constant
that the validators export, and the type that the last declaration declares. -/
theorem formHook_render (now : Instant) (hvalid : settings.isValid = true)
    (hd : Value.read s.json = .ok d) :
    ∃ a n hoisted root, s.render now settings = .ok a
      ∧ a.formHook
        = formModule settings.rootName settings.schemaName (deepened 4 a.defaultValues)
      ∧ exported? a.zod = some settings.schemaName
      ∧ s.tree = .ok (some n)
      ∧ declarations settings.toOptions settings.rootName n = hoisted ++ [root]
      ∧ a.typescript = "\n\n".intercalate ((hoisted ++ [root]).map Declaration.text)
      ∧ declared? root.text = some settings.rootName := by
  let n := s.overlay.apply (Schema.infer d)
  obtain ⟨-, hoisted, root, -, hdeclarations, hname, -⟩ :=
    Emit.TypeScript.exists_grows_declarations settings.toOptions settings.rootName n
  have hroot : isIdentifier root.name = true := hname ▸ hvalid
  have hdefaults : Emit.defaultLiteral now 2 n = deepened 4 (Emit.defaultLiteral now 0 n) :=
    Emit.literalAt_add 0 2 (Emit.defaultValue now n)
  refine ⟨_, n, hoisted, root, render_of_read now settings hd, ?_, ?_, tree_of_read hd,
    hdeclarations, ?_, ?_⟩
  · change Emit.Hook.form now settings.rootName n = _
    rw [Emit.Hook.form_eq_formModule, hdefaults]
    rfl
  · exact Emit.Zod.exported?_text _ (Emit.isIdentifier_schemaName hvalid) n
  · change Emit.TypeScript.text settings.toOptions settings.rootName n = _
    rw [Emit.TypeScript.text, hdeclarations]
  · rw [Emit.TypeScript.declared?_text hroot, hname]

theorem formHook_render_placeholders :
    let s : Session :=
      { json := "[\x7b\"\x7b\x7b root_name \x7d\x7d\":\"a\\n\x7b\x7b schema_name \x7d\x7d\"\x7d]" }
    let settings : Settings := { rootName := "Items" }
    let now : Instant := ⟨0⟩
    settings.isValid = true ∧ (∃ d, Value.read s.json = .ok d)
      ∧ ∃ a n hoisted root, s.render now settings = .ok a
        ∧ a.formHook
          = formModule settings.rootName settings.schemaName (deepened 4 a.defaultValues)
        ∧ exported? a.zod = some settings.schemaName
        ∧ s.tree = .ok (some n)
        ∧ declarations settings.toOptions settings.rootName n = hoisted ++ [root]
        ∧ a.typescript = "\n\n".intercalate ((hoisted ++ [root]).map Declaration.text)
        ∧ declared? root.text = some settings.rootName := by
  intro s settings now
  have hvalid : settings.isValid = true := by decide
  have hread : (Value.read s.json).toOption.isSome = true := by decide +kernel
  cases hd : Value.read s.json with
  | error e => simp [hd, Except.toOption] at hread
  | ok d => exact ⟨hvalid, ⟨d, rfl⟩, formHook_render now hvalid hd⟩

end TypeSketch.Session
