import ScopedSignatures.Proofs.Declaration.Claim

/-!
# Anchored declarations

A declaration with its name, or for an extension its target, read at the root.
Only the spelling of the name can change by that: what is claimed, and what a
report shows of a declaration, stays the same.

## Main definitions

* `Family.anchored`, `Extension.anchored`, `Declaration.anchored` — with the name read at the root

## Main results

* `Declaration.claim?_anchored` — an anchored declaration claims the same
* `Declaration.site_anchored` — and looks the same in a report
-/

namespace ScopedSignatures

/-- The class under its name read at the root. -/
def ClassDef.anchored (definition : ClassDef) : ClassDef :=
  { definition with name := definition.name.anchored }

/-- The module under its name read at the root. -/
def ModuleDef.anchored (definition : ModuleDef) : ModuleDef :=
  { definition with name := definition.name.anchored }

namespace ClassOrModule

/-- The class or module under its name read at the root. -/
def anchored : ClassOrModule → ClassOrModule
  | ofClass definition => ofClass definition.anchored
  | ofModule definition => ofModule definition.anchored

/-- A class stays a class. -/
theorem asClass?_anchored (entry : ClassOrModule) :
    entry.anchored.asClass? = entry.asClass?.map ClassDef.anchored := by
  cases entry <;> rfl

/-- A module stays a module. -/
theorem asModule?_anchored (entry : ClassOrModule) :
    entry.anchored.asModule? = entry.asModule?.map ModuleDef.anchored := by
  cases entry <;> rfl

end ClassOrModule

/-- The extension of the target read at the root. -/
def Extension.anchored (extension : Extension) : Extension :=
  { extension with target := extension.target.anchored }

namespace Family

/-- The entry under its name read at the root. The symbol of a global has no anchor. -/
def anchored : (family : Family) → family.Entry → family.Entry
  | classOrModule, entry => ClassOrModule.anchored entry
  | interface, entry => { entry with name := entry.name.anchored }
  | constant, entry => { entry with name := entry.name.anchored }
  | global, entry => entry
  | typeAlias, entry => { entry with name := entry.name.anchored }

/-- An entry claims the same key under either spelling. -/
@[simp] theorem key_anchored (family : Family) (entry : family.Entry) :
    family.key (family.anchored entry) = family.key entry := by
  cases family with
  | classOrModule => cases entry <;> rfl
  | interface | constant | global | typeAlias => rfl

@[simp] theorem site_anchored (family : Family) (entry : family.Entry) :
    family.site (family.anchored entry) = family.site entry := by
  cases family with
  | classOrModule => cases entry <;> rfl
  | interface | constant | global | typeAlias => rfl

end Family

namespace Declaration

/-- The declaration under its name, or the extension of the target, read at the root. -/
def anchored : Declaration → Declaration
  | keyed family entry => keyed family (family.anchored entry)
  | extension added => extension added.anchored

@[simp] theorem anchored_keyed (family : Family) (entry : family.Entry) :
    (keyed family entry).anchored = keyed family (family.anchored entry) := rfl

@[simp] theorem anchored_extension (added : Extension) :
    (extension added).anchored = extension added.anchored := rfl

@[simp] theorem claim?_anchored (declaration : Declaration) :
    declaration.anchored.claim? = declaration.claim? := by
  cases declaration with
  | keyed family entry => rw [anchored_keyed, claim?_keyed, Family.key_anchored, claim?_keyed]
  | extension added => rfl

@[simp] theorem site_anchored (declaration : Declaration) :
    declaration.anchored.site = declaration.site := by
  cases declaration with
  | keyed family entry => exact family.site_anchored entry
  | extension added => rfl

end Declaration

/-- Reports on anchored declarations are the same. -/
@[simp] theorem Claim.conflict_anchored (claim : Claim) (existing incoming : Declaration) :
    claim.conflict existing.anchored incoming.anchored = claim.conflict existing incoming := by
  rw [conflict, conflict, Declaration.site_anchored, Declaration.site_anchored]

end ScopedSignatures
