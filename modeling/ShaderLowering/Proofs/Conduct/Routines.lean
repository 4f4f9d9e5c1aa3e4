import ShaderLowering.Proofs.Conduct.Types
import ShaderLowering.Proofs.Scope.Types
import ShaderLowering.Proofs.Typing.Types

/-!
Computing with values. A routine is given ids of some kind and refers to nothing but those, types
and constants. It may complain of the builder, marks nothing, does not go by debug names, makes no
pointers and touches no texels. Every such step is said to be a routine, once; what becomes of
errors, marks, names, types and references is read off that.
-/

namespace ShaderLowering

open Spirv (Id Arg Op ExtOp)

/-- Instructions of which only what they refer to has to be known. They neither declare anything nor
give a name, no other invocation takes part in them, and they make no pointers and touch no texels
of storage images. -/
@[grind =]
def Spirv.Op.isRoutine (op : Op) : Bool :=
  op.isPlain && op.isFree && !op.isName

namespace Spirv.Op

variable {op : Op}

theorem isPlain_of_isRoutine (computes : op.isRoutine = true) : op.isPlain = true := by
  simp_all [isRoutine]

theorem isFree_of_isRoutine (computes : op.isRoutine = true) : op.isFree = true := by
  simp_all [isRoutine]

theorem isName_of_isRoutine (computes : op.isRoutine = true) : op.isName = false := by
  simp_all [isRoutine]

end Spirv.Op

/-- A step that refers to nothing but ids of the kind `p`, types and constants. -/
structure Routine {α : Type} [Refers α] (ok : CompileError → Prop) (p : Id → Prop)
    (e : Emission α) : Prop where
  conduct : Neat ok [] e
  typing (x : Shader) (v : VertexCounts) (m : Spirv.Module) : Safe x v m e.run
  scope {H : Limits} {env : Environment} {b : Spirv.Builder}
    (known : Spans p (b.Available H)) : Supplies H env b e.run

section

variable {α β γ : Type} [Refers α] [Refers β] {ok : CompileError → Prop} {p q : Id → Prop}
  {e : Emission α} {f : α → Emission β}

theorem Spans.trans {r : Id → Prop} (h : Spans p q) (h' : Spans q r) : Spans p r :=
  fun id is => h' id (h id is)

namespace Routine

@[grind ←]
theorem neat (h : Routine ok (fun _ => True) e) : Neat ok [] e :=
  h.conduct

@[grind ←]
theorem safe {x : Shader} {v : VertexCounts} {m : Spirv.Module}
    (h : Routine CompileError.IsAny (fun _ => True) e) : Safe x v m e.run :=
  h.typing x v m

@[grind ←]
theorem supplies {H : Limits} {env : Environment} {b : Spirv.Builder}
    (h : Routine CompileError.IsAny (b.Available H) e) : Supplies H env b e.run :=
  h.scope fun _ => id

theorem mono (h : Routine ok p e) (spans : Spans p q) : Routine ok q e :=
  ⟨h.conduct, h.typing, fun known => h.scope (spans.trans known)⟩

@[grind ←]
protected theorem pure {a : α} (given : Given p a) : Routine ok p (pure a) :=
  ⟨.pure a, fun _ _ _ => .pure a, fun known => .pure (given.mono known)⟩

/-- What comes later may refer to what has been computed as well. -/
@[grind ←]
protected theorem bind (first : Routine ok p e)
    (later : ∀ a q, Spans p q → Given q a → Routine ok q (f a)) : Routine ok p (e >>= f) where
  conduct := .bind first.conduct fun a =>
    (later a (fun _ => True) (fun _ _ => trivial) .anything).conduct
  typing x v m := .bind (first.typing x v m) fun a =>
    (later a (fun _ => True) (fun _ _ => trivial) .anything).typing x v m
  scope known := .bind (first.scope known) fun a _ within given =>
    (later a _ (fun id is => (known id is).mono within) given).scope fun _ => id

@[grind ←]
theorem read_bind {f : Environment → Emission β} (later : ∀ env, Routine ok p (f env))
    (same : ∀ env : Environment, f env.unnamed = f env) : Routine ok p (read >>= f) where
  conduct := .read_bind (fun env => (later env).conduct) same
  typing x v m := .read_bind ((later x.env).typing x v m)
  scope known := .read_bind ((later _).scope known)

theorem ite {c : Prop} [Decidable c] {e e' : Emission α} (yes : Routine ok p e)
    (no : Routine ok p e') : Routine ok p (if c then e else e') := by
  split
  · exact yes
  · exact no

/-- One step or another, and what comes after it in any case. -/
theorem choose {c : Prop} [Decidable c] {e e' : Emission α} (yes : Routine ok p e)
    (no : Routine ok p e') (later : ∀ a q, Spans p q → Given q a → Routine ok q (f a)) :
    Routine ok p (if c then e >>= f else e' >>= f) :=
  .ite (.bind yes later) (.bind no later)

theorem mapMMem {f : γ → Emission β} {list : List γ} (each : ∀ a ∈ list, Routine ok p (f a)) :
    Routine ok p (list.mapM f) := by
  induction list generalizing p with
  | nil =>
    rw [List.mapM_nil]
    exact .pure (Given.nil_iff.2 trivial)
  | cons a rest ih =>
    rw [List.mapM_cons]
    refine .bind (each a List.mem_cons_self) fun b q spans given => ?_
    refine .bind (ih fun a mem => (each a (List.mem_cons_of_mem _ mem)).mono spans)
      fun parts r spans' givens => .pure ?_
    exact Given.cons_iff.2 ⟨given.mono spans', givens⟩

@[grind ←]
theorem mapM {f : γ → Emission β} (each : ∀ a, Routine ok p (f a)) (list : List γ) :
    Routine ok p (list.mapM f) :=
  mapMMem fun a _ => each a

theorem orFault_of {a? : Option α} {fault : Fault} (h : a? = none → ok (.fault fault))
    (given : Given p a?) : Routine ok p (Lower.orFault a? fault) :=
  ⟨.orFault_of h, fun _ _ _ => .orFault _ _, fun known => .orFault _ (given.mono known)⟩

@[grind ←]
theorem unsupported [Reporting ok] (inst : Instruction) :
    Routine ok p (Lower.unsupported inst : Emission α) :=
  ⟨.unsupported inst, fun _ _ _ => .read_bind .fail, fun _ => .read_bind .fail⟩

end Routine

end

namespace Lower

variable {ok : CompileError → Prop} {p : Id → Prop} {value : Value}

@[grind ←]
theorem scalarType_routine (scalar : ScalarType) : Routine ok p (scalarType scalar) :=
  ⟨scalarType_neat _, fun _ _ _ => scalarType_safe _, fun _ => scalarType_supplies _⟩

@[grind ←]
theorem vectorType_routine (type : VectorType) : Routine ok p (vectorType type) :=
  ⟨vectorType_neat _, fun _ _ _ => vectorType_safe _, fun _ => vectorType_supplies _⟩

@[grind ←]
theorem constant_routine (scalar : ScalarType) [scalar.IsNumeric] (bits : UInt32) :
    Routine ok p (constant scalar bits) :=
  ⟨constant_neat _ _, fun _ _ _ => constant_safe _ _, fun _ => constant_supplies _ _⟩

@[grind ←]
theorem constant_zero_routine (scalar : ScalarType) : Routine ok p (constant scalar 0) :=
  ⟨constant_neat _ _, fun _ _ _ => constant_safe _ _, fun _ => constant_zero_supplies _⟩

@[grind ←]
theorem constantU32_routine (n : Nat) : Routine ok p (constantU32 n) :=
  constant_routine _ _

@[grind ←]
theorem constantVector_routine (scalar : ScalarType) [scalar.IsNumeric] (bits : List UInt32) :
    Routine ok p (constantVector scalar bits) :=
  ⟨constantVector_neat _ _, fun _ _ _ => constantVector_safe _ _,
    fun _ => constantVector_supplies _ _⟩

@[grind ←]
theorem constantValue_routine (scalar : ScalarType) [scalar.IsNumeric] (bits : List UInt32) :
    Routine ok p (constantValue scalar bits) :=
  .bind (constantVector_routine _ _) fun _ _ _ given => .pure given

@[grind ←]
theorem splat_routine (scalar : ScalarType) [scalar.IsNumeric] (bits : UInt32) (count : Nat) :
    Routine ok p (splat scalar bits count) :=
  constantValue_routine _ _

@[grind ←]
theorem requireCapability_routine (c : Spirv.Capability) : Routine ok p (requireCapability c) :=
  ⟨requireCapability_neat c, fun _ _ _ => requireCapability_safe c,
    fun _ => requireCapability_supplies c⟩

variable [Refusing ok]

@[grind ←]
theorem emitValue_routine {op : Op} (computes : op.isRoutine = true) {type : Id}
    (typed : Given p type) {args : List Arg} (given : Given p args) :
    Routine ok p (emitValue op type args) where
  conduct := emitValue_neat _ _ (Op.isName_of_isRoutine computes)
  typing _ _ _ := emitValue_safe (Op.isFree_of_isRoutine computes) _ _
  scope known := emitValue_supplies (Op.isPlain_of_isRoutine computes) (known type typed)
    (given.mono known)

theorem emit_routine {op : Op} (computes : op.isRoutine = true) {args : List Arg}
    (given : Given p args) : Routine ok p (emit op args) where
  conduct := emit_neat _ (Op.isName_of_isRoutine computes)
  typing _ _ _ := emit_safe (Op.isFree_of_isRoutine computes) _
  scope known := emit_supplies (Op.isPlain_of_isRoutine computes) (given.mono known)

/-- The extended set has been imported when the module was opened. -/
@[grind ←]
theorem extended_routine (op : ExtOp) (type : VectorType) {args : List Id} (given : Given p args) :
    Routine ok p (extended op type args) where
  conduct := .bind (vectorType_neat _) fun _ => .state_bind (fun _ =>
    .bind (emitValue_neat _ _ rfl) fun _ => .pure _) fun _ => rfl
  typing _ _ _ := .bind (vectorType_safe type) fun typeId => .state_bind fun _ =>
    .bind (emitValue_safe rfl typeId _) fun _ => .pure _
  scope {H _ b} known := by
    have known : Known H b args := given.mono known
    refine .bind (vectorType_establishes type).supplies fun typeId c within typed => ?_
    refine .state_bind fun s ready outgrown => ?_
    refine .bind (emitValue_supplies (by decide) (typed.mono outgrown) ?_) fun id d _ known => ?_
    · grind -linarith [ready.kept.extendedSet.available]
    · exact .pure known

@[grind ←]
theorem operate_routine {op : Op} (computes : op.isRoutine = true) (type : VectorType)
    {args : List Id} (given : Given p args) : Routine ok p (operate op type args) := by
  refine .bind (vectorType_routine type) fun typeId q spans typed => ?_
  refine .bind (emitValue_routine computes typed ?_) fun id r _ given => .pure given
  exact Given.map_id_iff.2 (given.mono spans)

@[grind ←]
theorem boolToMask_routine (given : Given p value) : Routine ok p (boolToMask value) := by
  refine .bind (splat_routine _ _ _) fun ones q spans first => ?_
  refine .bind (splat_routine _ _ _) fun zero r spans' second => ?_
  refine operate_routine rfl _ (Given.cons_iff.2 ⟨(given.mono spans).mono spans', ?_⟩)
  exact Given.cons_iff.2 ⟨first.mono spans', Given.cons_iff.2 ⟨second, Given.nil_iff.2 trivial⟩⟩

@[grind ←]
theorem recast_routine (given : Given p value) (scalar : ScalarType) :
    Routine ok p (recast value scalar) :=
  .ite (.pure given) (operate_routine rfl _ (Given.cons_iff.2 ⟨given, Given.nil_iff.2 trivial⟩))

@[grind ←]
theorem bitcast_routine (given : Given p value) (scalar : ScalarType) :
    Routine ok p (bitcast value scalar) :=
  .ite (.pure given) (.choose (boolToMask_routine given) (.pure given)
    fun _ _ _ given => recast_routine given scalar)

@[grind ←]
theorem extract_routine (given : Given p value) (component : Nat) :
    Routine ok p (extract value component) := by
  refine .ite (.pure given) (.bind (vectorType_routine _) fun typeId q spans typed => ?_)
  refine .bind (emitValue_routine rfl typed ?_) fun id r _ given => .pure given
  exact Given.cons_iff.2 ⟨given.mono spans, Given.cons_iff.2 ⟨trivial, Given.nil_iff.2 trivial⟩⟩

@[grind ←]
theorem extend_routine (given : Given p value) (count : Nat) :
    Routine ok p (extend value count) := by
  refine .ite (.pure given) (.bind (extract_routine given 0) fun part q spans part_ => ?_)
  exact operate_routine rfl _ (Given.replicate (a := part.id) part_ count)

@[grind ←]
theorem padToFour_routine (given : Given p value) : Routine ok p (padToFour value) := by
  refine .ite (.pure given) (.bind (constant_zero_routine _) fun filler q spans filler_ => ?_)
  refine .bind (.mapM (fun c => ?_) _) fun parts r spans' parts_ => ?_
  · exact .bind (extract_routine (given.mono spans) c) fun part r _ part_ => .pure part_
  · refine operate_routine rfl _ (Given.append_iff.2 ⟨parts_, ?_⟩)
    exact Given.replicate (filler_.mono spans') _

@[grind ←]
theorem completed_routine (given : Given p value) : Routine ok p (completed value) :=
  .ite (padToFour_routine given) (.pure given)

@[grind ←]
theorem pick_routine (given : Given p value) (lanes : List Nat) :
    Routine ok p (pick value lanes) := by
  refine .ite (.pure given) (.ite (extend_routine given _) ?_)
  split
  · exact extract_routine given _
  · refine .bind (vectorType_routine _) fun typeId q spans typed => ?_
    refine .bind (emitValue_routine (by decide) typed ?_) fun id r _ given => .pure given
    simpa using given.mono spans

@[grind ←]
theorem swizzle_routine (given : Given p value) (lanes : List Nat) :
    Routine ok p (swizzle value lanes) :=
  .ite (.pure given) (.choose (padToFour_routine given) (.pure given)
    fun _ _ _ given => pick_routine given lanes)

@[grind ←]
theorem selectMask_routine (given : Given p value) (mask : WriteMask) :
    Routine ok p (selectMask value mask) :=
  swizzle_routine given _

@[grind ←]
theorem compose_routine (scalar : ScalarType) {parts : List Id} (given : Given p parts) :
    Routine ok p (compose scalar parts) := by
  unfold compose
  split
  · exact .pure (Given.cons_iff.1 given).1
  · exact operate_routine rfl _ given

@[grind ←]
theorem absolute_routine (given : Given p value) : Routine ok p (absolute value) :=
  extended_routine _ _ (Given.cons_iff.2 ⟨given, Given.nil_iff.2 trivial⟩)

@[grind ←]
theorem negate_routine (given : Given p value) : Routine ok p (negate value) :=
  operate_routine (by split <;> rfl) _ (Given.cons_iff.2 ⟨given, Given.nil_iff.2 trivial⟩)

@[grind ←]
theorem applyModifier_routine (given : Given p value) (modifier : Modifier) :
    Routine ok p (applyModifier value modifier) :=
  .bind (.ite (absolute_routine given) (.pure given)) fun _ _ _ given =>
    .ite (negate_routine given) (.pure given)

@[grind ←]
theorem saturate_routine (given : Given p value) : Routine ok p (saturate value) := by
  refine .ite (.pure given) (.bind (splat_routine _ _ _) fun zero q spans zero_ => ?_)
  refine .bind (splat_routine _ _ _) fun one r spans' one_ => extended_routine _ _ ?_
  have given : Given r value := (given.mono spans).mono spans'
  grind -linarith

@[grind ←]
theorem zeroTest_routine (given : Given p value) (test : ZeroTest) :
    Routine ok p (zeroTest value test) := by
  refine .bind (bitcast_routine given _) fun value q _ given => ?_
  refine .bind (splat_routine _ _ _) fun zero r spans zero_ => ?_
  have given : Given r value := given.mono spans
  exact operate_routine (by cases test <;> rfl) _ (by grind -linarith)

@[grind ←]
theorem loadFrom_routine {type pointer : Id} (typed : Given p type) (given : Given p pointer) :
    Routine ok p (loadFrom type pointer) :=
  emitValue_routine rfl typed (Given.cons_iff.2 ⟨given, Given.nil_iff.2 trivial⟩)

@[grind ←]
theorem storeTo_routine {pointer value : Id} (place : Given p pointer) (given : Given p value) :
    Routine ok p (storeTo pointer value) :=
  emit_routine rfl (Given.cons_iff.2 ⟨place, Given.cons_iff.2 ⟨given, Given.nil_iff.2 trivial⟩⟩)

@[grind ←]
theorem load_routine {place : Pointer} (given : Given p place) : Routine ok p (load place) :=
  .bind (vectorType_routine _) fun _ _ spans typed =>
    .bind (loadFrom_routine typed (given.mono spans)) fun _ _ _ given => .pure given

end Lower

end ShaderLowering
