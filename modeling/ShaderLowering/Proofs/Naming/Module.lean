import ShaderLowering.Spirv.Module

/-!
Debug names. They stand in a section of their own, and no builder step goes by them: whatever the
builder does to a module, it does the same to the module without its names.
-/

namespace ShaderLowering.Spirv

@[grind unfold]
def Op.isName : Op → Bool
  | name => true
  | _ => false

/-- Whether an instruction gives a debug name. -/
def Instr.isName (i : Instr) : Bool :=
  match i.op with
  | .ordinary op => op.isName
  | .control _ => false

/-- A module without its debug names. -/
def Module.unnamed (m : Module) : Module :=
  { m with names := #[] }

/-- No instruction of a function gives a debug name. -/
structure Function.NoNames (f : Function) : Prop where
  definition : f.definition.isName = false
  blocks : ∀ k ∈ f.blocks, ∀ i ∈ k.body, i.isName = false

theorem Function.NoNames.instructions {f : Function} (h : f.NoNames) :
    ∀ i ∈ f.instructions, i.isName = false := by
  intro i mem
  rcases List.mem_append.1 mem with mem | mem
  · rcases List.mem_cons.1 mem with rfl | mem
    · exact h.definition
    · obtain ⟨k, inside, mem⟩ := List.mem_flatMap.1 mem
      rcases List.mem_cons.1 mem with rfl | mem
      · rfl
      · exact h.blocks k (Array.mem_toList_iff.1 inside) i (Array.mem_toList_iff.1 mem)
  · rw [List.mem_singleton.1 mem]
    rfl

/-- Debug names stand in their section and nowhere else. -/
structure Module.NamesApart (m : Module) : Prop where
  names : ∀ i ∈ m.names, i.isName = true
  capabilities : ∀ i ∈ m.capabilities, i.isName = false
  extensions : ∀ i ∈ m.extensions, i.isName = false
  imports : ∀ i ∈ m.imports, i.isName = false
  memoryModel : ∀ i ∈ m.memoryModel, i.isName = false
  entryPoints : ∀ i ∈ m.entryPoints, i.isName = false
  executionModes : ∀ i ∈ m.executionModes, i.isName = false
  annotations : ∀ i ∈ m.annotations, i.isName = false
  globals : ∀ i ∈ m.globals, i.isName = false
  functions : ∀ f ∈ m.functions, f.NoNames

theorem forall_mem_modify {α : Type} {p : α → Prop} {xs : Array α} {n : Nat} {f : α → α}
    (all : ∀ a ∈ xs, p a) (stays : ∀ a, p a → p (f a)) : ∀ a ∈ xs.modify n f, p a := by
  intro a mem
  obtain ⟨k, bound, rfl⟩ := Array.mem_iff_getElem.1 mem
  rw [Array.size_modify] at bound
  rw [Array.getElem_modify]
  split
  · exact stays _ (all _ (Array.getElem_mem bound))
  · exact all _ (Array.getElem_mem bound)

theorem forall_mem_push {α : Type} {p : α → Prop} {xs : Array α} {a : α}
    (all : ∀ b ∈ xs, p b) (last : p a) : ∀ b ∈ xs.push a, p b := by
  intro b mem
  rcases Array.mem_push.1 mem with mem | rfl
  · exact all b mem
  · exact last

namespace Module

variable {m : Module}

theorem namesApart_empty (version : SpirvVersion) : (empty version).NamesApart := by
  constructor <;> exact fun _ mem => absurd mem (Array.not_mem_empty _)

/-- Without the names, a module has all its other instructions in the same order. -/
theorem NamesApart.instructions_unnamed (h : m.NamesApart) :
    m.unnamed.instructions = m.instructions.filter (!·.isName) := by
  have stays {is : List Instr} (all : ∀ i ∈ is, i.isName = false) :
      is.filter (!·.isName) = is :=
    List.filter_eq_self.2 fun i mem => by rw [all i mem]; rfl
  have goes : m.names.toList.filter (!·.isName) = [] :=
    List.filter_eq_nil_iff.2 fun i mem => by simp [h.names i (Array.mem_toList_iff.1 mem)]
  have functions : (m.functions.toList.flatMap Function.instructions).filter (!·.isName) =
      m.functions.toList.flatMap Function.instructions := stays fun i mem => by
    obtain ⟨f, inside, mem⟩ := List.mem_flatMap.1 mem
    exact (h.functions f (Array.mem_toList_iff.1 inside)).instructions i mem
  unfold instructions
  simp only [List.filter_append, functions, goes, List.append_nil,
    stays fun i mem => h.capabilities i (Array.mem_toList_iff.1 mem),
    stays fun i mem => h.extensions i (Array.mem_toList_iff.1 mem),
    stays fun i mem => h.imports i (Array.mem_toList_iff.1 mem),
    stays fun i mem => h.memoryModel i (Array.mem_toList_iff.1 mem),
    stays fun i mem => h.entryPoints i (Array.mem_toList_iff.1 mem),
    stays fun i mem => h.executionModes i (Array.mem_toList_iff.1 mem),
    stays fun i mem => h.annotations i (Array.mem_toList_iff.1 mem),
    stays fun i mem => h.globals i (Array.mem_toList_iff.1 mem)]
  simp only [unnamed, Array.toList_empty, List.append_nil]

end Module

namespace Builder

variable {b c : Builder} {i : Instr}

/-- A builder without the debug names. -/
def unnamed (b : Builder) : Builder :=
  { b with module := b.module.unnamed }

theorem make_unnamed (b : Builder) (key : Key) :
    b.unnamed.make key = ((b.make key).1, (b.make key).2.unnamed) := by
  cases key with
  | constant key => rfl
  | type key =>
    change b.unnamed.findOrDeclare key.op key.args =
      ((b.findOrDeclare key.op key.args).1, (b.findOrDeclare key.op key.args).2.unnamed)
    unfold findOrDeclare
    rw [show b.unnamed.findGlobal? key.op none key.args =
      b.findGlobal? key.op none key.args from rfl]
    cases b.findGlobal? key.op none key.args with
    | none => rfl
    | some id => rfl

theorem declare_unnamed (b : Builder) (key : Key) :
    b.unnamed.declare key = ((b.declare key).1, (b.declare key).2.unnamed) := by
  unfold declare
  rw [show b.unnamed.tables.lookup key = b.tables.lookup key from rfl]
  cases b.tables.lookup key with
  | some id => rfl
  | none =>
    have same := b.make_unnamed key
    dsimp only
    generalize b.unnamed.mem_make key = held
    generalize b.unnamed.make key = made at held same
    subst same
    rfl

theorem namesApart_addGlobal (h : b.module.NamesApart) (other : i.isName = false) :
    (b.addGlobal i).module.NamesApart :=
  { h with globals := forall_mem_push h.globals other }

theorem namesApart_annotate (h : b.module.NamesApart) (other : i.isName = false) :
    (b.annotate i).module.NamesApart :=
  { h with annotations := forall_mem_push h.annotations other }

theorem namesApart_declareNew (h : b.module.NamesApart) {op : Op} (other : op.isName = false)
    (type? : Option Id) (args : List Arg) :
    (b.declareNew op type? args).2.module.NamesApart := by
  exact namesApart_addGlobal h other

theorem isName_key (key : Key) : key.op.isName = false := by
  unfold Key.op TypeKey.op ConstantKey.op
  split <;> split <;> first | rfl | (split <;> rfl)

theorem namesApart_declare (h : b.module.NamesApart) (key : Key) :
    (b.declare key).2.module.NamesApart := by
  obtain ⟨id, _, _, same⟩ | ⟨_, new⟩ := b.declare_eq key
  · rw [same]
    exact h
  · rw [new]
    exact namesApart_declareNew h (isName_key key) key.type? key.args

/-- A builder step that may be refused. It does the same without the debug names, and gives none
itself. -/
structure Blind (f : Builder → Except BuildError Builder) : Prop where
  same : ∀ b, f b.unnamed = (f b).map unnamed
  apart : ∀ b c, b.module.NamesApart → f b = .ok c → c.module.NamesApart

theorem push_unnamed (b : Builder) (i : Instr) : b.unnamed.push i = (b.push i).map unnamed := by
  unfold push
  rw [show b.unnamed.function? = b.function? from rfl, show b.unnamed.block? = b.block? from rfl]
  cases b.function? with
  | none => rfl
  | some function => cases b.block? <;> rfl

theorem namesApart_push (h : b.module.NamesApart) (other : i.isName = false)
    (pushed : b.push i = .ok c) : c.module.NamesApart := by
  obtain ⟨function, block, _, _, rfl⟩ := push_eq_ok.1 pushed
  have grown (f : Function) (old : f.NoNames) : Function.NoNames
      { f with blocks := f.blocks.modify block fun k => { k with body := k.body.push i } } := by
    refine ⟨old.definition, ?_⟩
    dsimp only
    exact forall_mem_modify old.blocks fun k old => forall_mem_push old other
  refine { h with functions := ?_ }
  dsimp only [pushTo]
  exact forall_mem_modify h.functions grown

theorem blind_push (other : i.isName = false) : Blind (·.push i) :=
  ⟨fun b => b.push_unnamed i, fun _ _ h pushed => namesApart_push h other pushed⟩

theorem blind_terminate (other : i.isName = false) : Blind (·.terminate i) where
  same b := by
    unfold terminate
    rw [show b.unnamed.block? = b.block? from rfl, push_unnamed]
    cases b.block? with
    | none => rfl
    | some _ => cases b.push i <;> rfl
  apart b c h ended := by
    unfold terminate at ended
    split at ended
    · cases ended
    · split at ended
      · next d pushed =>
        cases ended
        exact (namesApart_push h other pushed : d.module.NamesApart)
      · cases ended

theorem blind_endFunction : Blind endFunction where
  same b := by
    unfold endFunction
    rw [show b.unnamed.function? = b.function? from rfl]
    cases b.function? <;> rfl
  apart b c h ended := by
    unfold endFunction at ended
    split at ended
    · cases ended
      exact h
    · cases ended

theorem blind_reopenBlock (n : Nat) : Blind (·.reopenBlock n) where
  same b := by
    unfold reopenBlock
    rw [show b.unnamed.function? = b.function? from rfl]
    cases b.function? with
    | none => rfl
    | some function =>
      dsimp only
      rw [show b.unnamed.module.functions = b.module.functions from rfl]
      split <;> rfl
  apart b c h opened := by
    unfold reopenBlock at opened
    split at opened
    · cases opened
    · dsimp only at opened
      split at opened
      · cases opened
        exact h
      · cases opened

theorem blind_beginBlock (label? : Option Id) :
    Blind fun b => (b.beginBlock label?).map (·.2) where
  same b := by
    unfold beginBlock
    rw [show b.unnamed.function? = b.function? from rfl, show b.unnamed.block? = b.block? from rfl]
    cases b.function? with
    | none => rfl
    | some function =>
      cases b.block? with
      | some _ => rfl
      | none => cases label? <;> rfl
  apart b c h opened := by
    have start (label : Id) : ∀ f : Function, f.NoNames →
        Function.NoNames { f with blocks := f.blocks.push (.start label) } :=
      fun f old => ⟨old.definition, forall_mem_push old.blocks fun _ mem =>
        absurd mem (Array.not_mem_empty _)⟩
    unfold beginBlock at opened
    split at opened
    · cases opened
    · cases opened
    · cases label? with
      | none =>
        cases opened
        exact { h with functions := forall_mem_modify h.functions (start _) }
      | some label =>
        cases opened
        exact { h with functions := forall_mem_modify h.functions (start _) }

theorem beginFunction_unnamed (b : Builder) (returnType functionType : Id) (id? : Option Id) :
    b.unnamed.beginFunction returnType functionType id? =
      (b.beginFunction returnType functionType id?).map fun r => (r.1, r.2.unnamed) := by
  unfold beginFunction
  rw [show b.unnamed.function? = b.function? from rfl]
  cases b.function? with
  | some _ => rfl
  | none => cases id? <;> rfl

theorem namesApart_beginFunction {id : Id} (h : b.module.NamesApart)
    {returnType functionType : Id} {id? : Option Id}
    (opened : b.beginFunction returnType functionType id? = .ok (id, c)) :
    c.module.NamesApart := by
  have start (definition : Instr) (other : definition.isName = false) :
      Function.NoNames ⟨definition, #[]⟩ :=
    ⟨other, fun _ mem => absurd mem (Array.not_mem_empty _)⟩
  unfold beginFunction at opened
  split at opened
  · cases opened
  · cases id? with
    | none =>
      cases opened
      exact { h with functions := forall_mem_push h.functions (start _ rfl) }
    | some id =>
      cases opened
      exact { h with functions := forall_mem_push h.functions (start _ rfl) }

theorem variable_unnamed (b : Builder) (pointerType : Id) (storage : StorageClass)
    (initial? : Option Id) : b.unnamed.variable_ pointerType storage initial? =
      ((b.variable_ pointerType storage initial?).1,
        (b.variable_ pointerType storage initial?).2.unnamed) := by
  unfold variable_
  dsimp only
  rw [show b.unnamed.fresh.2 = b.fresh.2.unnamed from rfl,
    show b.unnamed.fresh.1 = b.fresh.1 from rfl, push_unnamed]
  cases b.fresh.2.push _ <;> rfl

theorem namesApart_variable (h : b.module.NamesApart) (pointerType : Id) (storage : StorageClass)
    (initial? : Option Id) :
    (b.variable_ pointerType storage initial?).2.module.NamesApart := by
  unfold variable_
  dsimp only
  split
  · next c pushed => exact (namesApart_push (b := b.fresh.2) h rfl pushed : c.module.NamesApart)
  · exact namesApart_addGlobal (b := b.fresh.2) h rfl

end Builder

end ShaderLowering.Spirv
