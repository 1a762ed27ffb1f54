/-
The components of an application under any calls.

A call that fails half-way leaves behind what it has built by then (`getCompiler`, `getRenderer`).

* `exists_guard`, `compiler_cases`, `exists_renderer` — what one call hands out is kept, with
  everything that was kept before;
* `perform_eq` — no call fails half-way, so that one that fails leaves the components as they were;
* `wired_performAll` — a renderer that is kept is wired with the compiler and the guard that are kept,
  and what is kept was built after the last clearing;
* `performAll_lawful` — so between two clearings the same components are handed out again, and after
  one only new ones;
* `compiler_unknown` — an unknown kind of compiler is refused exactly as long as no compiler is kept.
-/
import Mathlib.Data.List.Induction
import Tender.Components
import Tender.Proofs.Renderer

namespace Tender

/-- The compiler that a renderer is wired with. -/
def WiredRenderer.compiler (r : WiredRenderer) : Built Compiler :=
  ⟨r.compilerNumber, r.renderer.compiler⟩

/-- The guard that a renderer is wired with. -/
def WiredRenderer.guard (r : WiredRenderer) : Built Guard := ⟨r.guardNumber, r.renderer.guard⟩

namespace Components

/-! ### Calls -/

/-- A call on the components. -/
inductive Call where
  | guard
  | compiler (kind : Text)
  | renderer
  | clear
  deriving DecidableEq

/-- What a call hands out. -/
inductive Handed where
  | guard (g : Built Guard)
  | compiler (k : Built Compiler)
  | renderer (r : Built WiredRenderer)
  | nothing

/-- What a call comes to, and the components after it, whether it has failed or not. -/
abbrev Progress (α : Type) := Except Fault α × Components

/-- Gets the compiler; the guard that was built for it stays also if the compiler cannot be built. -/
def getCompiler (c : Components) (kind : Text) : Progress (Built Compiler) :=
  match c.compiler? with
  | some k => (.ok k, c)
  | none =>
    if kind = compilerKind then
      let (g, c) := c.guard
      match Compiler.new c.settings g.component.names with
      | .ok k =>
        let k : Built Compiler := ⟨c.count, k⟩
        (.ok k, { c with count := c.count + 1, compiler? := some k })
      | .error f => (.error f, c)
    else (.error (.unknownEngine kind), c)

/-- Gets the renderer; what was built for it stays also if it cannot be built. -/
def getRenderer (c : Components) : Progress (Built WiredRenderer) :=
  match c.renderer? with
  | some r => (.ok r, c)
  | none => match c.getCompiler compilerKind with
    | (.error f, c) => (.error f, c)
    | (.ok k, c) =>
      let (g, c) := c.guard
      let r : Built WiredRenderer :=
        ⟨c.count, ⟨⟨c.settings, g.component, k.component⟩, k.number, g.number⟩⟩
      (.ok r, { c with count := c.count + 1, renderer? := some r })

/-- What a call hands out, and the components after it. -/
def perform (c : Components) : Call → Progress Handed
  | .guard => (.ok (.guard c.guard.1), c.guard.2)
  | .compiler kind => ((c.getCompiler kind).1.map .compiler, (c.getCompiler kind).2)
  | .renderer => (c.getRenderer.1.map .renderer, c.getRenderer.2)
  | .clear => (.ok .nothing, c.clear)

/-- The components after calls one after the other, whatever they answered. -/
def performAll (c : Components) (calls : List Call) : Components :=
  calls.foldl (fun c call => (c.perform call).2) c

/-- What a call hands out, with the components after it; a call that fails only tells why. -/
def answer (c : Components) : Call → Except Fault (Handed × Components)
  | .guard => .ok (.guard c.guard.1, c.guard.2)
  | .compiler kind => (c.compiler kind).map fun (k, d) => (.compiler k, d)
  | .renderer => c.renderer.map fun (r, d) => (.renderer r, d)
  | .clear => .ok (.nothing, c.clear)

/-- Where an answer leads: a call that fails leaves the components as they were. -/
def settled {α : Type} (c : Components) : Except Fault (α × Components) → Progress α
  | .ok (a, d) => (.ok a, d)
  | .error f => (.error f, c)

variable {c d e : Components} {n : Nat}

/-! ### What the components keep -/

/-- The components hang together: the guard is the standard one, a renderer is wired with the
compiler and the guard that are kept, and everything was built as number `n` or later. -/
structure Wired (n : Nat) (c : Components) : Prop where
  count : n ≤ c.count
  guard : ∀ g, c.guard? = some g → g.component = Guard.standard ∧ n ≤ g.number ∧ g.number < c.count
  compiler : ∀ k, c.compiler? = some k → n ≤ k.number ∧ k.number < c.count
  renderer : ∀ r, c.renderer? = some r → (n ≤ r.number ∧ r.number < c.count) ∧
    c.compiler? = some r.component.compiler ∧ c.guard? = some r.component.guard

/-- What the first components keep, the second ones keep as well. -/
structure Kept (c d : Components) : Prop where
  count : c.count ≤ d.count
  guard : ∀ g, c.guard? = some g → d.guard? = some g
  compiler : ∀ k, c.compiler? = some k → d.compiler? = some k
  renderer : ∀ r, c.renderer? = some r → d.renderer? = some r

theorem Kept.refl (c : Components) : Kept c c :=
  ⟨Nat.le_refl _, fun _ h => h, fun _ h => h, fun _ h => h⟩

theorem Kept.trans (h : Kept c d) (h' : Kept d e) : Kept c e :=
  ⟨Nat.le_trans h.count h'.count, fun g hg => h'.guard g (h.guard g hg),
    fun k hk => h'.compiler k (h.compiler k hk), fun r hr => h'.renderer r (h.renderer r hr)⟩

/-- Where nothing is kept, everything has yet to be built. -/
theorem wired_of_empty (hguard : c.guard? = none) (hcompiler : c.compiler? = none)
    (hrenderer : c.renderer? = none) : Wired c.count c := by
  refine ⟨Nat.le_refl _, fun g hg => ?_, fun k hk => ?_, fun r hr => ?_⟩
  · rw [hguard] at hg
    cases hg
  · rw [hcompiler] at hk
    cases hk
  · rw [hrenderer] at hr
    cases hr

theorem Wired.mono {m : Nat} (h : Wired n c) (hm : m ≤ n) : Wired m c :=
  ⟨Nat.le_trans hm h.count, fun g hg => (h.guard g hg).imp_right <| And.imp_left (Nat.le_trans hm),
    fun k hk => (h.compiler k hk).imp_left (Nat.le_trans hm),
    fun r hr => (h.renderer r hr).imp_left <| And.imp_left (Nat.le_trans hm)⟩

/-! ### What is built -/

/-- The components with a guard that was built just now. -/
def addGuard (c : Components) : Components :=
  { c with count := c.count + 1, guard? := some ⟨c.count, Guard.standard⟩ }

/-- The components with a compiler that was built just now. -/
def addCompiler (c : Components) : Components :=
  { c with count := c.count + 1, compiler? := some ⟨c.count, Compiler.standard c.settings⟩ }

/-- The components with a renderer that was built just now. -/
def addRenderer (c : Components) (k : Built Compiler) (g : Built Guard) : Components :=
  { c with
    count := c.count + 1
    renderer? := some ⟨c.count, ⟨c.settings, g.component, k.component⟩, k.number, g.number⟩ }

theorem wired_addGuard (h : Wired n c) (hguard : c.guard? = none) :
    Wired n c.addGuard ∧ Kept c c.addGuard := by
  refine ⟨⟨Nat.le_succ_of_le h.count, ?_, ?_, ?_⟩, Nat.le_succ _, ?_, fun _ hk => hk, fun _ hr => hr⟩
  · rintro g ⟨⟩
    exact ⟨rfl, h.count, Nat.lt_succ_self _⟩
  · exact fun k hk => (h.compiler k hk).imp_right Nat.lt_succ_of_lt
  · -- a renderer would be wired with a guard
    intro r hr
    have hwired := (h.renderer r hr).2.2
    rw [hguard] at hwired
    cases hwired
  · intro g hg
    rw [hguard] at hg
    cases hg

theorem wired_addCompiler (h : Wired n c) (hcompiler : c.compiler? = none) :
    Wired n c.addCompiler ∧ Kept c c.addCompiler := by
  refine ⟨⟨Nat.le_succ_of_le h.count, ?_, ?_, ?_⟩, Nat.le_succ _, fun _ hg => hg, ?_, fun _ hr => hr⟩
  · exact fun g hg => (h.guard g hg).imp_right <| And.imp_right Nat.lt_succ_of_lt
  · rintro k ⟨⟩
    exact ⟨h.count, Nat.lt_succ_self _⟩
  · -- a renderer would be wired with a compiler
    intro r hr
    have hwired := (h.renderer r hr).2.1
    rw [hcompiler] at hwired
    cases hwired
  · intro k hk
    rw [hcompiler] at hk
    cases hk

theorem wired_addRenderer (h : Wired n c) {k : Built Compiler} {g : Built Guard}
    (hcompiler : c.compiler? = some k) (hguard : c.guard? = some g)
    (hrenderer : c.renderer? = none) :
    Wired n (c.addRenderer k g) ∧ Kept c (c.addRenderer k g) := by
  refine ⟨⟨Nat.le_succ_of_le h.count, ?_, ?_, ?_⟩, Nat.le_succ _, fun _ hg => hg, fun _ hk => hk, ?_⟩
  · exact fun g hg => (h.guard g hg).imp_right <| And.imp_right Nat.lt_succ_of_lt
  · exact fun k hk => (h.compiler k hk).imp_right Nat.lt_succ_of_lt
  · rintro r ⟨⟩
    exact ⟨⟨h.count, Nat.lt_succ_self _⟩, hcompiler, hguard⟩
  · intro r hr
    rw [hrenderer] at hr
    cases hr

/-! ### One call -/

/-- The guard that is handed out is kept, and the other parts stay as they were. -/
theorem exists_guard (h : Wired n c) : ∃ g d, c.guard = (g, d) ∧ Wired n d ∧ Kept c d ∧
    d.guard? = some g ∧ d.compiler? = c.compiler? ∧ d.renderer? = c.renderer? := by
  cases hguard : c.guard? with
  | some g =>
    have heq : c.guard = (g, c) := by rw [Components.guard, hguard]
    exact ⟨g, c, heq, h, .refl c, hguard, rfl, rfl⟩
  | none =>
    obtain ⟨hwired, hkept⟩ := wired_addGuard h hguard
    have heq : c.guard = (⟨c.count, Guard.standard⟩, c.addGuard) := by
      rw [Components.guard, hguard]
      rfl
    exact ⟨_, _, heq, hwired, hkept, rfl, rfl, rfl⟩

/-- A compiler is handed out and kept, or an unknown kind is refused because none is kept. -/
theorem compiler_cases (h : Wired n c) (kind : Text) :
    (∃ k d, c.compiler kind = .ok (k, d) ∧ c.getCompiler kind = (.ok k, d) ∧ Wired n d ∧ Kept c d ∧
      d.compiler? = some k ∧ d.renderer? = c.renderer?) ∨
    (c.compiler? = none ∧ kind ≠ compilerKind ∧ c.compiler kind = .error (.unknownEngine kind) ∧
      c.getCompiler kind = (.error (.unknownEngine kind), c)) := by
  cases hcompiler : c.compiler? with
  | some k =>
    refine .inl ⟨k, c, ?_, ?_, h, .refl c, hcompiler, rfl⟩
    · rw [Components.compiler, hcompiler]
    · rw [getCompiler, hcompiler]
  | none =>
    by_cases hkind : kind = compilerKind
    · obtain ⟨g, d, hg, hwired, hkept, hguard, hnone, hrenderer⟩ := exists_guard h
      obtain ⟨hwired', hkept'⟩ := wired_addCompiler hwired (hnone.trans hcompiler)
      -- the names of the guard are the standard ones, with which a compiler can be built
      have hnew : Compiler.new d.settings g.component.names =
          .ok (Compiler.standard d.settings) := by
        rw [(hwired.guard g hguard).1]
        exact Compiler.new_eq _
      refine .inl ⟨⟨d.count, Compiler.standard d.settings⟩, d.addCompiler, ?_, ?_, hwired',
        hkept.trans hkept', rfl, hrenderer⟩
      · rw [Components.compiler, hcompiler]
        simp only [if_pos hkind, hg, hnew]
        rfl
      · rw [getCompiler, hcompiler]
        simp only [if_pos hkind, hg, hnew]
        rfl
    · refine .inr ⟨rfl, hkind, ?_, ?_⟩
      · rw [Components.compiler, hcompiler]
        exact if_neg hkind
      · rw [getCompiler, hcompiler]
        exact if_neg hkind

/-- The renderer that is handed out is kept. -/
theorem exists_renderer (h : Wired n c) : ∃ r d, c.renderer = .ok (r, d) ∧
    c.getRenderer = (.ok r, d) ∧ Wired n d ∧ Kept c d ∧ d.renderer? = some r := by
  cases hrenderer : c.renderer? with
  | some r =>
    refine ⟨r, c, ?_, ?_, h, .refl c, hrenderer⟩
    · rw [Components.renderer, hrenderer]
    · rw [getRenderer, hrenderer]
  | none =>
    obtain ⟨k, d, hk, hget, hwired, hkept, hcompiler, hnone⟩ :=
      (compiler_cases h compilerKind).resolve_right fun hunknown => hunknown.2.1 rfl
    obtain ⟨g, e, hg, hwired', hkept', hguard, hcompiler', hnone'⟩ := exists_guard hwired
    obtain ⟨hwired'', hkept''⟩ := wired_addRenderer hwired' (hcompiler'.trans hcompiler) hguard
      (hnone'.trans (hnone.trans hrenderer))
    refine ⟨_, e.addRenderer k g, ?_, ?_, hwired'', hkept.trans (hkept'.trans hkept''), rfl⟩
    · rw [Components.renderer, hrenderer]
      simp only [hk, bind, Except.bind, hg]
      rfl
    · rw [getRenderer, hrenderer]
      simp only [hget, hg]
      rfl

/-! ### What is handed out -/

namespace Handed

/-- The guard that is handed out, by itself or with a renderer. -/
def guard? : Handed → Option (Built Guard)
  | .guard g => some g
  | .renderer r => some r.component.guard
  | _ => none

/-- The compiler that is handed out, by itself or with a renderer. -/
def compiler? : Handed → Option (Built Compiler)
  | .compiler k => some k
  | .renderer r => some r.component.compiler
  | _ => none

/-- The renderer that is handed out. -/
def renderer? : Handed → Option (Built WiredRenderer)
  | .renderer r => some r
  | _ => none

/-- The numbers of the components that are handed out. -/
def numbers : Handed → List Nat
  | .guard g => [g.number]
  | .compiler k => [k.number]
  | .renderer r => [r.number, r.component.compilerNumber, r.component.guardNumber]
  | .nothing => []

/-- Two calls hand out the same guard, compiler and renderer, as far as both hand them out. -/
structure Agrees (x y : Handed) : Prop where
  guard : ∀ g g', x.guard? = some g → y.guard? = some g' → g = g'
  compiler : ∀ k k', x.compiler? = some k → y.compiler? = some k' → k = k'
  renderer : ∀ r r', x.renderer? = some r → y.renderer? = some r' → r = r'

/-- Two calls hand out no component in common. -/
def Apart (x y : Handed) : Prop :=
  ∀ m ∈ x.numbers, m ∉ y.numbers

end Handed

/-- Everything that was handed out is kept. -/
structure Holds (c : Components) (x : Handed) : Prop where
  guard : ∀ g, x.guard? = some g → c.guard? = some g
  compiler : ∀ k, x.compiler? = some k → c.compiler? = some k
  renderer : ∀ r, x.renderer? = some r → c.renderer? = some r

theorem Holds.agrees {x y : Handed} (hx : Holds c x) (hy : Holds c y) : x.Agrees y :=
  ⟨fun g g' hg hg' => Option.some.inj ((hx.guard g hg).symm.trans (hy.guard g' hg')),
    fun k k' hk hk' => Option.some.inj ((hx.compiler k hk).symm.trans (hy.compiler k' hk')),
    fun r r' hr hr' => Option.some.inj ((hx.renderer r hr).symm.trans (hy.renderer r' hr'))⟩

theorem Holds.kept {x : Handed} (hx : Holds c x) (h : Kept c d) : Holds d x :=
  ⟨fun g hg => h.guard g (hx.guard g hg), fun k hk => h.compiler k (hx.compiler k hk),
    fun r hr => h.renderer r (hx.renderer r hr)⟩

/-- What is kept has numbers from the first on that still counts. -/
theorem Holds.numbers {x : Handed} (hx : Holds c x) (h : Wired n c) {m : Nat} (hm : m ∈ x.numbers) :
    n ≤ m ∧ m < c.count := by
  cases x with
  | guard g =>
    rw [List.mem_singleton.1 hm]
    exact (h.guard g (hx.guard g rfl)).2
  | compiler k =>
    rw [List.mem_singleton.1 hm]
    exact h.compiler k (hx.compiler k rfl)
  | renderer r =>
    simp only [Handed.numbers, List.mem_cons, List.not_mem_nil, or_false] at hm
    rcases hm with rfl | rfl | rfl
    · exact (h.renderer r (hx.renderer r rfl)).1
    · exact h.compiler _ (hx.compiler _ rfl)
    · exact (h.guard _ (hx.guard _ rfl)).2
  | nothing => cases hm

/-- A call forgets everything, or hands out what it keeps, or asks for a compiler of an unknown kind
when none is kept. -/
theorem perform_cases (h : Wired n c) (call : Call) :
    call = .clear ∨
    (∃ x d, c.answer call = .ok (x, d) ∧ c.perform call = (.ok x, d) ∧ Wired n d ∧ Kept c d ∧
      Holds d x) ∨
    ∃ kind, call = .compiler kind ∧ kind ≠ compilerKind ∧ c.compiler? = none ∧
      c.answer call = .error (.unknownEngine kind) ∧
      c.perform call = (.error (.unknownEngine kind), c) := by
  cases call with
  | guard =>
    obtain ⟨g, d, hg, hwired, hkept, hguard, -⟩ := exists_guard h
    refine .inr (.inl ⟨.guard g, d, ?_, ?_, hwired, hkept, ?_, nofun, nofun⟩)
    · rw [answer, hg]
    · rw [perform, hg]
    · rintro _ ⟨⟩
      exact hguard
  | compiler kind =>
    refine .inr ?_
    obtain ⟨k, d, hk, hget, hwired, hkept, hcompiler, -⟩ | ⟨hnone, hkind, hk, hget⟩ :=
      compiler_cases h kind
    · refine .inl ⟨.compiler k, d, ?_, ?_, hwired, hkept, nofun, ?_, nofun⟩
      · rw [answer, hk]
        rfl
      · rw [perform, hget]
        rfl
      · rintro _ ⟨⟩
        exact hcompiler
    · refine .inr ⟨kind, rfl, hkind, hnone, ?_, ?_⟩
      · rw [answer, hk]
        rfl
      · rw [perform, hget]
        rfl
  | renderer =>
    obtain ⟨r, d, hr, hget, hwired, hkept, hrenderer⟩ := exists_renderer h
    obtain ⟨-, hcompiler, hguard⟩ := hwired.renderer r hrenderer
    refine .inr (.inl ⟨.renderer r, d, ?_, ?_, hwired, hkept, ?_, ?_, ?_⟩)
    · rw [answer, hr]
      rfl
    · rw [perform, hget]
      rfl
    · rintro _ ⟨⟩
      exact hguard
    · rintro _ ⟨⟩
      exact hcompiler
    · rintro _ ⟨⟩
      exact hrenderer
  | clear => exact .inl rfl

/-- No call fails half-way. -/
theorem perform_eq (h : Wired n c) (call : Call) : c.perform call = settled c (c.answer call) := by
  obtain rfl | ⟨x, d, hanswer, hperform, -⟩ | ⟨kind, -, -, -, hanswer, hperform⟩ :=
    perform_cases h call
  · rfl
  · rw [hanswer, hperform, settled]
  · rw [hanswer, hperform, settled]

theorem wired_perform (h : Wired n c) (call : Call) : Wired n (c.perform call).2 := by
  obtain rfl | ⟨x, d, -, hperform, hwired, -⟩ | ⟨kind, -, -, -, -, hperform⟩ := perform_cases h call
  · exact (wired_of_empty (c := c.clear) rfl rfl rfl).mono h.count
  · rw [hperform]
    exact hwired
  · rw [hperform]
    exact h

theorem kept_perform (h : Wired n c) {call : Call} (hcall : call ≠ .clear) :
    Kept c (c.perform call).2 := by
  obtain hclear | ⟨x, d, -, hperform, -, hkept, -⟩ | ⟨kind, -, -, -, -, hperform⟩ :=
    perform_cases h call
  · exact absurd hclear hcall
  · rw [hperform]
    exact hkept
  · rw [hperform]
    exact .refl c

theorem holds_perform (h : Wired n c) {call : Call} {x : Handed}
    (hx : (c.perform call).1 = .ok x) : Holds (c.perform call).2 x := by
  obtain rfl | ⟨y, d, -, hperform, -, -, hholds⟩ | ⟨kind, -, -, -, -, hperform⟩ :=
    perform_cases h call
  · cases hx
    exact ⟨nofun, nofun, nofun⟩
  · rw [hperform] at hx ⊢
    cases hx
    exact hholds
  · rw [hperform] at hx
    cases hx

/-! ### Many calls -/

@[simp] theorem performAll_nil (c : Components) : c.performAll [] = c := rfl

@[simp] theorem performAll_cons (c : Components) (call : Call) (calls : List Call) :
    c.performAll (call :: calls) = (c.perform call).2.performAll calls := rfl

theorem performAll_append (c : Components) (calls later : List Call) :
    c.performAll (calls ++ later) = (c.performAll calls).performAll later := List.foldl_append

theorem wired_performAll (h : Wired n c) (calls : List Call) : Wired n (c.performAll calls) := by
  induction calls generalizing c with
  | nil => exact h
  | cons call calls ih => exact ih (wired_perform h call)

theorem kept_performAll (h : Wired n c) {calls : List Call} (hcalls : .clear ∉ calls) :
    Kept c (c.performAll calls) := by
  induction calls generalizing c with
  | nil => exact .refl c
  | cons call calls ih =>
    obtain ⟨hcall, hcalls⟩ := not_or.1 (fun hmem => hcalls (List.mem_cons.2 hmem))
    exact (kept_perform h (Ne.symm hcall)).trans (ih (wired_perform h call) hcalls)

theorem count_le_performAll (h : Wired n c) (calls : List Call) :
    c.count ≤ (c.performAll calls).count := by
  induction calls generalizing c with
  | nil => exact Nat.le_refl _
  | cons call calls ih =>
    refine Nat.le_trans ?_ (ih (wired_perform h call))
    by_cases hcall : call = .clear
    · rw [hcall]
      exact Nat.le_refl _
    · exact (kept_perform h hcall).count

/-- After a clearing everything that is kept was built later than anything before it. -/
theorem wired_performAll_clear (h : Wired n c) {calls : List Call} (hcalls : .clear ∈ calls) :
    Wired c.count (c.performAll calls) := by
  obtain ⟨before, after, rfl⟩ := List.append_of_mem hcalls
  rw [performAll_append, performAll_cons]
  exact wired_performAll
    ((wired_of_empty (c := (c.performAll before).clear) rfl rfl rfl).mono
      (count_le_performAll h before)) after

/-- What calls on the components come to. -/
structure Lawful (c : Components) : Prop where
  /-- A call answers as the components do. -/
  answers : ∀ call, c.perform call = settled c (c.answer call)
  /-- Only a compiler of an unknown kind may be refused. -/
  available : ∀ call, (∀ kind, call = .compiler kind → kind = compilerKind) →
    ∃ x, (c.perform call).1 = .ok x
  /-- A call that fails changes nothing. -/
  failed : ∀ call f, (c.perform call).1 = .error f → (c.perform call).2 = c
  /-- As long as nothing is cleared, the same components are handed out again, by themselves and as
  the parts of a renderer. -/
  again : ∀ call between next x y, .clear ∉ between → (c.perform call).1 = .ok x →
    ((c.performAll (call :: between)).perform next).1 = .ok y → x.Agrees y
  /-- After a clearing none of them is handed out again. -/
  anew : ∀ call between next x y, .clear ∈ between → (c.perform call).1 = .ok x →
    ((c.performAll (call :: between)).perform next).1 = .ok y → x.Apart y

/-- After any calls, all calls on the components of an application are lawful. -/
theorem performAll_lawful (s : Settings) (earlier : List Call) :
    Lawful ((new s).performAll earlier) := by
  have hwired : Wired 0 ((new s).performAll earlier) :=
    wired_performAll (wired_of_empty (c := new s) rfl rfl rfl) earlier
  generalize (new s).performAll earlier = c at hwired
  refine ⟨perform_eq hwired, fun call hknown => ?_, fun call f hf => ?_, ?_, ?_⟩
  · obtain rfl | ⟨x, d, -, hperform, -⟩ | ⟨kind, hcall, hkind, -⟩ := perform_cases hwired call
    · exact ⟨.nothing, rfl⟩
    · exact ⟨x, by rw [hperform]⟩
    · exact absurd (hknown kind hcall) hkind
  · rw [perform_eq hwired] at hf ⊢
    cases hanswer : c.answer call with
    | ok p =>
      rw [hanswer] at hf
      cases hf
    | error f => rfl
  · -- what the first call hands out is kept until after the last one
    intro call between next x y hbetween hx hy
    have hwired' := wired_performAll (wired_perform hwired call) between
    have hkept := kept_performAll (wired_perform hwired call) hbetween
    have hheld := (holds_perform hwired hx).kept hkept
    by_cases hnext : next = .clear
    · rw [hnext] at hy
      cases hy
      exact ⟨fun _ _ _ => nofun, fun _ _ _ => nofun, fun _ _ _ => nofun⟩
    · exact (hheld.kept (kept_perform hwired' hnext)).agrees (holds_perform hwired' hy)
  · intro call between next x y hbetween hx hy
    have hwired' := wired_perform (wired_performAll_clear (wired_perform hwired call) hbetween) next
    intro m hm hm'
    have hlt := ((holds_perform hwired hx).numbers (wired_perform hwired call) hm).2
    have hle := ((holds_perform (wired_performAll hwired (call :: between)) hy).numbers hwired' hm').1
    exact Nat.lt_irrefl _ (Nat.lt_of_lt_of_le hlt hle)

/-! ### Unknown kinds of compiler -/

/-- Since the last clearing a compiler or a renderer was asked for, so that one is kept. -/
def AskedFor (earlier : List Call) : Prop :=
  ∃ before call after, earlier = before ++ call :: after ∧
    (call = .renderer ∨ call = .compiler compilerKind) ∧ .clear ∉ after

theorem askedFor_append_singleton (earlier : List Call) (call : Call) :
    AskedFor (earlier ++ [call]) ↔
      (call = .renderer ∨ call = .compiler compilerKind) ∨ call ≠ .clear ∧ AskedFor earlier := by
  constructor
  · rintro ⟨before, asked, after, heq, hasked, hclear⟩
    rcases List.eq_nil_or_concat after with rfl | ⟨after, last, rfl⟩
    · obtain ⟨-, heq⟩ := List.append_inj' heq rfl
      cases heq
      exact .inl hasked
    · have heq' : earlier ++ [call] = (before ++ asked :: after) ++ [last] := by
        rw [heq, List.concat_eq_append, List.append_assoc]
        rfl
      obtain ⟨rfl, hlast⟩ := List.append_inj' heq' rfl
      cases hlast
      simp only [List.concat_eq_append, List.mem_append, List.mem_singleton, not_or] at hclear
      exact .inr ⟨Ne.symm hclear.2, before, asked, after, rfl, hasked, hclear.1⟩
  · rintro (hasked | ⟨hcall, before, asked, after, rfl, hasked, hclear⟩)
    · exact ⟨earlier, call, [], rfl, hasked, List.not_mem_nil⟩
    · refine ⟨before, asked, after ++ [call], by rw [List.append_assoc]; rfl, hasked, ?_⟩
      rw [List.mem_append, List.mem_singleton]
      rintro (hmem | heq)
      · exact hclear hmem
      · exact hcall heq.symm

theorem perform_compiler_kept {k : Built Compiler} (h : c.compiler? = some k) (kind : Text) :
    c.perform (.compiler kind) = (.ok (.compiler k), c) := by
  rw [perform, getCompiler, h]
  rfl

theorem perform_compiler_refused (h : c.compiler? = none) {kind : Text}
    (hkind : kind ≠ compilerKind) :
    c.perform (.compiler kind) = (.error (.unknownEngine kind), c) := by
  rw [perform, getCompiler, h]
  simp only [if_neg hkind]
  rfl

/-- Whether a compiler is kept after a call. -/
theorem isSome_compiler?_perform (h : Wired n c) (call : Call) :
    (c.perform call).2.compiler?.isSome = true ↔
      (call = .renderer ∨ call = .compiler compilerKind) ∨
        call ≠ .clear ∧ c.compiler?.isSome = true := by
  cases call with
  | guard =>
    obtain ⟨g, d, hg, -, -, -, hcompiler, -⟩ := exists_guard h
    simp [perform, hg, hcompiler]
  | compiler kind =>
    cases hc : c.compiler? with
    | some k => simp [perform_compiler_kept hc, hc]
    | none =>
      by_cases hkind : kind = compilerKind
      · obtain ⟨k, d, -, hget, -, -, hcompiler, -⟩ :=
          (compiler_cases h kind).resolve_right fun hunknown => hunknown.2.1 hkind
        rw [hkind] at hget
        simp [perform, hget, hcompiler, hkind]
      · simp [perform_compiler_refused hc hkind, hc, hkind]
  | renderer =>
    obtain ⟨r, d, -, hget, hwired, -, hrenderer⟩ := exists_renderer h
    simp [perform, hget, (hwired.renderer r hrenderer).2.1]
  | clear => simp [perform, clear]

theorem isSome_compiler?_performAll (s : Settings) (earlier : List Call) :
    ((new s).performAll earlier).compiler?.isSome = true ↔ AskedFor earlier := by
  induction earlier using List.reverseRecOn with
  | nil =>
    refine iff_of_false (fun h => by cases h) ?_
    rintro ⟨before, call, after, heq, -⟩
    cases (List.append_eq_nil_iff.1 heq.symm).2
  | append_singleton earlier call ih =>
    have hwired : Wired 0 ((new s).performAll earlier) :=
      wired_performAll (wired_of_empty (c := new s) rfl rfl rfl) earlier
    rw [performAll_append, askedFor_append_singleton, ← ih]
    exact isSome_compiler?_perform hwired call

/-- An unknown kind of compiler leaves the components as they were.  It is refused exactly if, since
the last clearing, neither a compiler of the known kind nor a renderer was asked for; otherwise the
compiler that is kept is handed out for it. -/
theorem compiler_unknown (s : Settings) (earlier : List Call) {kind : Text}
    (hkind : kind ≠ compilerKind) :
    let c := (new s).performAll earlier
    (c.perform (.compiler kind)).2 = c ∧
      ((c.perform (.compiler kind)).1 = .error (.unknownEngine kind) ↔ ¬ AskedFor earlier) ∧
      (AskedFor earlier → ∃ x, c.perform (.compiler kind) = (.ok x, c) ∧
        c.perform (.compiler compilerKind) = (.ok x, c)) := by
  intro c
  have hasked : c.compiler?.isSome = true ↔ AskedFor earlier := isSome_compiler?_performAll s earlier
  rw [← hasked]
  cases hc : c.compiler? with
  | some k =>
    rw [perform_compiler_kept hc, perform_compiler_kept hc]
    exact ⟨rfl, iff_of_false nofun (· rfl), fun _ => ⟨_, rfl, rfl⟩⟩
  | none =>
    rw [perform_compiler_refused hc hkind]
    exact ⟨rfl, iff_of_true rfl nofun, nofun⟩

/-- After a renderer was asked for, and the guard since, any kind is answered with its compiler; after
a clearing it is refused again. -/
theorem compiler_unknown_mustache :
    (∃ x, (((new {}).performAll [.renderer, .guard]).perform (.compiler (lit "mustache"))).1 =
      .ok x) ∧
    (((new {}).performAll [.renderer, .clear, .guard]).perform (.compiler (lit "mustache"))).1 =
      .error (.unknownEngine (lit "mustache")) := by
  have hkind : lit "mustache" ≠ compilerKind := by decide +kernel
  have hasked : AskedFor [.renderer, .guard] := ⟨[], .renderer, [.guard], rfl, .inl rfl, by decide⟩
  have hcleared : ¬ AskedFor (([.renderer] ++ [.clear]) ++ [.guard]) := by
    rw [askedFor_append_singleton, askedFor_append_singleton]
    simp
  obtain ⟨x, hx, -⟩ := (compiler_unknown {} _ hkind).2.2 hasked
  exact ⟨⟨x, by rw [hx]⟩, (compiler_unknown {} _ hkind).2.1.2 hcleared⟩

/-- An unknown kind is handed out the compiler that is kept. -/
theorem compiler_mustache_kept :
    (((new {}).performAll [.compiler compilerKind]).perform (.compiler (lit "mustache"))).1.toBool =
      true := by
  decide +kernel

end Components
end Tender
