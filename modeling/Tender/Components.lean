/-
The components of an application, each built when it is first asked for and kept until all are
cleared.

Components are told apart by the number of their building; no two that were ever built have the same
number.

Main statements: `guard_again`, `compiler_again` and `renderer_again`, a component that was handed
out is handed out again.
-/
import Tender.Document

namespace Tender

/-- A component with the number of its building. -/
structure Built (α : Type) where
  number : Nat
  component : α

/-- A renderer with the numbers of the parts that it was built from. -/
structure WiredRenderer where
  renderer : Renderer
  compilerNumber : Nat
  guardNumber : Nat

/-- The components of an application. -/
structure Components where
  settings : Settings
  /-- How many components have been built. -/
  count : Nat
  guard? : Option (Built Guard)
  compiler? : Option (Built Compiler)
  renderer? : Option (Built WiredRenderer)

namespace Components

/-- Nothing built yet. -/
def new (s : Settings) : Components := ⟨s, 0, none, none, none⟩

/-- The guard. -/
def guard (c : Components) : Built Guard × Components :=
  match c.guard? with
  | some g => (g, c)
  | none =>
    let g : Built Guard := ⟨c.count, Guard.standard⟩
    (g, { c with count := c.count + 1, guard? := some g })

/-- The one kind of compiler there is. -/
def compilerKind : Text := lit "handlebars"

/-- The compiler; the kind that is asked for counts only when it has to be built. -/
def compiler (c : Components) (kind : Text) : Except Fault (Built Compiler × Components) :=
  match c.compiler? with
  | some k => .ok (k, c)
  | none =>
    if kind = compilerKind then do
      let (g, c) := c.guard
      let k : Built Compiler := ⟨c.count, ← Compiler.new c.settings g.component.names⟩
      return (k, { c with count := c.count + 1, compiler? := some k })
    else .error (.unknownEngine kind)

/-- The renderer, wired with the compiler and the guard. -/
def renderer (c : Components) : Except Fault (Built WiredRenderer × Components) :=
  match c.renderer? with
  | some r => .ok (r, c)
  | none => do
    let (k, c) ← c.compiler compilerKind
    let (g, c) := c.guard
    let r : Built WiredRenderer :=
      ⟨c.count, ⟨⟨c.settings, g.component, k.component⟩, k.number, g.number⟩⟩
    return (r, { c with count := c.count + 1, renderer? := some r })

/-- Forgets all components. -/
def clear (c : Components) : Components :=
  { c with guard? := none, compiler? := none, renderer? := none }

theorem guard_again (c : Components) : c.guard.2.guard.1 = c.guard.1 := by
  unfold guard
  cases hg : c.guard? <;> simp [hg]

theorem compiler_again {c d : Components} {k : Built Compiler} {kind other : Text}
    (h : c.compiler kind = .ok (k, d)) : d.compiler other = .ok (k, d) := by
  unfold compiler at h
  split at h
  · rename_i k' hk
    obtain ⟨rfl, rfl⟩ := Prod.mk.inj (Except.ok.inj h)
    simp [compiler, hk]
  · split at h
    · simp only [bind, Except.bind] at h
      split at h
      · simp at h
      · simp only [pure, Except.pure, Except.ok.injEq, Prod.mk.injEq] at h
        obtain ⟨rfl, rfl⟩ := h
        simp [compiler]
    · simp at h

theorem renderer_again {c d : Components} {r : Built WiredRenderer}
    (h : c.renderer = .ok (r, d)) : d.renderer = .ok (r, d) := by
  unfold renderer at h
  split at h
  · rename_i r' hr
    obtain ⟨rfl, rfl⟩ := Prod.mk.inj (Except.ok.inj h)
    simp [renderer, hr]
  · simp only [bind, Except.bind] at h
    split at h
    · simp at h
    · simp only [pure, Except.pure, Except.ok.injEq, Prod.mk.injEq] at h
      obtain ⟨rfl, rfl⟩ := h
      simp [renderer]

end Components
end Tender
