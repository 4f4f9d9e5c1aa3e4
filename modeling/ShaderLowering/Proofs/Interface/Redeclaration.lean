import ShaderLowering.Proofs.Interface.Declarations
import ShaderLowering.Proofs.Lowering.Idempotence

/-!
A declaration may be repeated. Whatever an instruction declares, taking it again at once succeeds
and changes nothing: what it asks for is found where the first time has put it, and what it says of
a stage or a register has been said already.
-/

namespace ShaderLowering

theorem Table.find?_insert_self {α : Type} (t : Table α) (key : UInt32) (a : α) :
    (t.insert key a).find? key = some a := by
  rw [find?_insert, if_pos rfl]

theorem Table.insertIn_insertIn_self {α : Type} (key : UInt32) (a : α) (l : List (UInt32 × α)) :
    insertIn key a (insertIn key a l) = insertIn key a l := by
  induction l with
  | nil => simp [insertIn]
  | cons e rest ih =>
    obtain ⟨k, b⟩ := e
    by_cases before : key < k
    · simp [insertIn, before]
    · by_cases here : k = key
      · simp [insertIn, here]
      · simp [insertIn, before, here, ih]

/-- The same entry may be put in twice. -/
theorem Table.insert_insert_self {α : Type} (t : Table α) (key : UInt32) (a : α) :
    (t.insert key a).insert key a = t.insert key a := by
  simp only [insert, insertIn_insertIn_self]

/-- Nothing is added to what is all there. -/
theorem foldl_unless_of_subset {α : Type} [BEq α] [LawfulBEq α] {xs acc : List α}
    (inside : ∀ a ∈ xs, a ∈ acc) :
    xs.foldl (fun acc p => if acc.contains p then acc else acc ++ [p]) acc = acc := by
  induction xs with
  | nil => rfl
  | cons x xs ih =>
    rw [List.foldl_cons, if_pos (List.contains_iff_mem.2 (inside x List.mem_cons_self))]
    exact ih fun a mem => inside a (List.mem_cons_of_mem x mem)

/-- What is declared of a register may be declared again. -/
theorem InterfaceRegister.declare_again (r : InterfaceRegister) (mask : WriteMask)
    (values : List (WriteMask × SystemValue)) (location? : Option LocationVariable) :
    declare { r.declare mask values with location? } mask values =
      { r.declare mask values with location? } := by
  have masks : r.mask ||| mask ||| mask = r.mask ||| mask := by
    change (⟨r.mask.bits ||| mask.bits ||| mask.bits⟩ : WriteMask) = ⟨r.mask.bits ||| mask.bits⟩
    rw [UInt8.or_assoc, UInt8.or_self]
  have inside : ∀ p ∈ values, p ∈ (r.declare mask values).systemValues :=
    fun p mem => mem_foldl_unless.2 (.inr mem)
  have same := foldl_unless_of_subset inside
  unfold declare at same ⊢
  rw [same]
  simp only [masks]

variable {α β : Type} {env : Environment} {s t : State}

namespace Lower

open Emission

theorem failWith_asks (fault : Fault) : Asks (failWith fault : Emission α) :=
  .fail _ _

theorem orFault_asks (a? : Option α) (fault : Fault) : Asks (orFault a? fault) := by
  cases a? with
  | none => exact failWith_asks fault
  | some a => exact .pure a

theorem unsupported_asks (inst : Instruction) : Asks (unsupported inst : Emission α) :=
  .read_bind fun _ => .fail _ _

theorem source_asks (inst : Instruction) (n : Nat) : Asks (source inst n) :=
  orFault_asks _ _

theorem destination_asks (inst : Instruction) (n : Nat) : Asks (destination inst n) :=
  orFault_asks _ _

theorem groupMemoryRegister_asks (inst : Instruction) : Asks (groupMemoryRegister inst) :=
  .bind (destination_asks inst 0) fun _ => .pure _

theorem declaredSlot_asks (op : Operand) (slotClass : BindingClass) :
    Asks (declaredSlot op slotClass) :=
  .bind (orFault_asks _ _) fun _ => .ite (.bind (.fail _ _) fun _ => .pure _) (.pure _)

theorem checkRedeclared_asks (letter : String) (slot : UInt32) (first : Resource)
    (inst : Instruction) : Asks (checkRedeclared letter slot first inst) :=
  .ite (failWith_asks _) (.pure ())

/-- What a step has noted holds behind it. -/
theorem Gives.note {known : Unit → State → Prop} {f : State → State}
    {same : ∀ s : State, s.SameOutline (f s)} {keeps : ∀ s : State, s.SameInterface (f s)}
    (h : ∀ s, known () (f s)) : Gives known (.note f same keeps) := by
  intro env s _ t ran
  cases ran
  exact h s

theorem Gives.of_run {m : Emission α} {a : α} (known : α → State → Prop)
    (ran : m.run env s = (.ok a, t)) (gives : Gives known m) : known a t :=
  gives env s a t ran

theorem Gives.imp {known known' : α → State → Prop} {m : Emission α} (gives : Gives known m)
    (more : ∀ a s, known a s → known' a s) : Gives known' m :=
  fun env s a t ran => more a t (gives env s a t ran)

theorem Gives.orFault_bind {a? : Option α} {fault : Fault} {f : α → Emission β}
    {known : β → State → Prop} (later : ∀ a, a? = some a → Gives known (f a)) :
    Gives known (orFault a? fault >>= f) := by
  cases a? with
  | none =>
    intro env s b t ran
    cases ran
  | some a => exact later a rfl

/-- A check that is passed. -/
theorem run_check {p : Prop} [Decidable p] (passes : ¬p) (fault : Fault) (env : Environment)
    (s : State) : (if p then failWith fault else Pure.pure () : Emission Unit).run env s =
      (.ok (), s) := by
  rw [if_neg passes]
  rfl

theorem declareIndexableTemp_idempotent (reg length : UInt32) :
    Idempotent (declareIndexableTemp reg length) := by
  refine .guard fun _ => ?_
  extract_lets length
  refine .of_find (fun s => s.indexableTemps.find? reg) (fun first =>
    if first.length ≠ length then
      failWith (.indexableTempRedeclared reg length first.length) else Pure.pure ())
    (fun _ _ => rfl) (fun first => .ite (failWith_asks _) (.pure ())) (fun env s first found => ?_)
    fun env s t missing ran => ?_
  · rw [run_state_bind, found]
  · rw [run_state_bind, missing] at ran
    obtain ⟨id, found⟩ := Gives.of_run
      (fun _ t => ∃ id, t.indexableTemps.find? reg = some ⟨id, length⟩) ran <|
      .bind fun element => .bind fun type => .bind fun id => .bind fun _ => .note fun s =>
        ⟨id, s.indexableTemps.find?_insert_self reg _⟩
    exact ⟨_, found, run_check (fun differs => differs rfl) _ _ _⟩

theorem declareGroupMemory_idempotent (reg stride : UInt32) (length : Nat) :
    Idempotent (declareGroupMemory reg stride length) := by
  refine .guard fun _ => ?_
  extract_lets length
  refine .of_find (fun s => s.groupMemory.find? reg) (fun first =>
    if first.stride ≠ stride ∨ first.length ≠ length then
      failWith (.groupMemoryRedeclared reg stride length first.stride first.length)
      else Pure.pure ())
    (fun _ _ => rfl) (fun first => .ite (failWith_asks _) (.pure ())) (fun env s first found => ?_)
    fun env s t missing ran => ?_
  · rw [run_state_bind, found]
  · rw [run_state_bind, missing] at ran
    obtain ⟨id, found⟩ := Gives.of_run
      (fun _ t => ∃ id, t.groupMemory.find? reg = some ⟨id, stride, length⟩) ran <|
      .bind fun word => .bind fun type => .bind fun id => .bind fun _ => .note fun s =>
        ⟨id, s.groupMemory.find?_insert_self reg _⟩
    exact ⟨_, found, run_check (by simp) _ _ _⟩

theorem lowerStructuredGroupMemory_idempotent (inst : Instruction) (stride count : UInt32) :
    Idempotent (lowerStructuredGroupMemory inst stride count) :=
  .bind (groupMemoryRegister_asks inst) fun reg => .guard fun _ =>
    declareGroupMemory_idempotent reg stride _

theorem lowerConstantBufferDeclaration_idempotent (inst : Instruction) :
    Idempotent (lowerConstantBufferDeclaration inst) := by
  refine .bind (source_asks inst 0) fun op => .bind (declaredSlot_asks op _) fun slot => ?_
  extract_lets declared size
  refine .of_find (fun s => s.constantBuffers.find? slot) (fun first =>
    if first.size ≠ size then failWith (.constantBufferRedeclared slot size first.size)
      else Pure.pure ())
    (fun _ _ => rfl) (fun first => .ite (failWith_asks _) (.pure ())) (fun env s first found => ?_)
    fun env s t missing ran => ?_
  · rw [run_state_bind, found]
  · rw [run_state_bind, missing] at ran
    obtain ⟨id, found⟩ := Gives.of_run
      (fun _ t => ∃ id, t.constantBuffers.find? slot = some ⟨id, size⟩) ran <|
      .bind fun block => .bind fun id => .bind fun _ => .bind fun binding => .bind fun _ =>
        .note fun s => ⟨id, s.constantBuffers.find?_insert_self slot _⟩
    exact ⟨_, found, run_check (fun differs => differs rfl) _ _ _⟩

theorem lowerSamplerDeclaration_idempotent (inst : Instruction) :
    Idempotent (lowerSamplerDeclaration inst) := by
  refine .bind (destination_asks inst 0) fun op => .bind (declaredSlot_asks op _) fun slot => ?_
  refine .of_find (fun s => s.samplers.find? slot) (fun _ => Pure.pure ()) (fun _ _ => rfl)
    (fun _ => .pure ()) (fun env s first found => ?_) fun env s t missing ran => ?_
  · rw [run_state_bind, Table.contains, found]
    rfl
  · rw [run_state_bind, Table.contains, missing] at ran
    obtain ⟨id, found⟩ := Gives.of_run (fun _ t => ∃ id, t.samplers.find? slot = some id) ran <|
      .bind fun type => .bind fun id => .bind fun _ => .bind fun binding => .bind fun _ =>
        .note fun s => ⟨id, s.samplers.find?_insert_self slot _⟩
    exact ⟨id, found, rfl⟩

theorem lowerImmediateConstants_idempotent (words : List UInt32) :
    Idempotent (lowerImmediateConstants words) := by
  refine .of_find (·.immediateConstants?) (fun _ => Pure.pure ()) (fun _ _ => rfl)
    (fun _ => .pure ()) (fun env s first found => ?_) fun env s t missing ran => ?_
  · unfold lowerImmediateConstants
    rw [run_state_bind, found]
    rfl
  · unfold lowerImmediateConstants at ran
    rw [run_state_bind, missing] at ran
    obtain ⟨id, found⟩ := Gives.of_run (fun _ t => ∃ id, t.immediateConstants? = some id) ran <|
      .bind fun elements => .bind fun element => .bind fun type => .bind fun initial =>
        .bind fun id => .bind fun _ => .note fun s => ⟨id, rfl⟩
    exact ⟨id, found, rfl⟩

/-- A view agrees with what a declaration asks for. -/
def Resource.Agrees (first : Resource) (inst : Instruction) : Prop :=
  first.image?.isSome = declaresTyped inst ∧
    some first.dimension = if declaresTyped inst then
      (ViewShape.ofCode? inst.resourceDim).map (·.dimension) else some .buffer

theorem checkRedeclared_run {first : Resource} {inst : Instruction}
    (agrees : Resource.Agrees first inst) (letter : String) (slot : UInt32) (env : Environment)
    (s : State) :
    (checkRedeclared letter slot first inst).run env s = (.ok (), s) := by
  refine run_check ?_ _ _ _
  rw [agrees.1, agrees.2]
  simp

theorem newTypedView_gives (slotClass : BindingClass) (slot : UInt32) (kind : ResourceKind)
    (dimension : ViewDimension) (image : ImageType) :
    Gives (fun made _ => made.1.image? = some image ∧ made.1.dimension = dimension)
      (newTypedView slotClass slot kind dimension image) :=
  .bind fun _ => .bind fun _ => .bind fun _ => .pure fun _ => ⟨rfl, rfl⟩

theorem newBuffer_gives (slotClass : BindingClass) (slot stride : UInt32) (isWritable : Bool) :
    Gives (fun made _ => made.1.image? = none ∧ made.1.dimension = .buffer)
      (newBuffer slotClass slot stride isWritable) :=
  .bind fun _ => .bind fun _ => .bind fun _ => .ite (.bind fun _ => .pure fun _ => ⟨rfl, rfl⟩)
    (.bind fun _ => .bind fun _ => .pure fun _ => ⟨rfl, rfl⟩)

/-- What is made for a typed view agrees with its declaration. -/
theorem agrees_typed {inst : Instruction} (typed : declaresTyped inst = true) {shape : ViewShape}
    (known : ViewShape.ofCode? inst.resourceDim = some shape) {image : ImageType}
    {made : Resource} (is : made.image? = some image ∧ made.dimension = shape.dimension) :
    Resource.Agrees made inst := by
  refine ⟨by rw [is.1, typed]; rfl, ?_⟩
  rw [if_pos typed, known, is.2]
  rfl

/-- So does what is made for a buffer. -/
theorem agrees_buffer {inst : Instruction} (untyped : declaresTyped inst = false)
    {made : Resource} (is : made.image? = none ∧ made.dimension = .buffer) :
    Resource.Agrees made inst := by
  refine ⟨by rw [is.1, untyped]; rfl, ?_⟩
  rw [if_neg (by simp [untyped]), is.2]

theorem newTexture_agrees (inst : Instruction) (slot : UInt32)
    (notUav : inst.op? ≠ some .dclUavTyped) :
    Gives (fun made _ => Resource.Agrees made.1 inst) (newTexture inst slot) := by
  unfold newTexture
  split
  · next typed =>
    have typed : declaresTyped inst = true := by simp [declaresTyped, typed]
    exact .orFault_bind fun shape known => .bind fun _ =>
      (newTypedView_gives _ _ _ _ _).imp fun made _ is => agrees_typed typed known is
  · next untyped =>
    have untyped : declaresTyped inst = false := by simp [declaresTyped, untyped, notUav]
    exact (newBuffer_gives _ _ _ _).imp fun made _ is => agrees_buffer untyped is

theorem newUav_agrees (inst : Instruction) (slot : UInt32)
    (notResource : inst.op? ≠ some .dclResource) :
    Gives (fun made _ => Resource.Agrees made.1 inst) (newUav inst slot) := by
  unfold newUav
  split
  · next typed =>
    have typed : declaresTyped inst = true := by simp [declaresTyped, typed]
    exact .orFault_bind fun shape known => .bind fun env => .bind fun format => .bind fun _ =>
      (newTypedView_gives _ _ _ _ _).imp fun made _ is =>
        agrees_typed typed (Option.filter_eq_some_iff.1 known).1 is
  · next untyped =>
    have untyped : declaresTyped inst = false := by simp [declaresTyped, untyped, notResource]
    exact (newBuffer_gives _ _ _ _).imp fun made _ is => agrees_buffer untyped is

theorem lowerResourceDeclaration_idempotent (inst : Instruction)
    (notUav : inst.op? ≠ some .dclUavTyped) : Idempotent (lowerResourceDeclaration inst) := by
  refine .bind (destination_asks inst 0) fun op => .bind (declaredSlot_asks op _) fun slot => ?_
  refine .of_find (fun s => s.textures.find? slot)
    (fun first => checkRedeclared "t" slot first inst) (fun _ _ => rfl)
    (fun first => checkRedeclared_asks _ _ first inst) (fun env s first found => ?_)
    fun env s t missing ran => ?_
  · rw [run_state_bind, found]
  · rw [run_state_bind, missing] at ran
    obtain ⟨⟨made, binding⟩, u, new, rest⟩ := run_bind_eq_ok.1 ran
    have agrees := newTexture_agrees inst slot notUav _ _ _ _ new
    have found : t.textures.find? slot = some made := Gives.of_run
      (fun _ t => t.textures.find? slot = some made) rest <|
      .bind fun _ => .bind fun _ => .note fun s => s.textures.find?_insert_self slot _
    exact ⟨made, found, checkRedeclared_run agrees _ _ _ _⟩

theorem lowerUavDeclaration_idempotent (inst : Instruction)
    (notResource : inst.op? ≠ some .dclResource) : Idempotent (lowerUavDeclaration inst) := by
  refine .bind (destination_asks inst 0) fun op => .bind (declaredSlot_asks op _) fun slot => ?_
  refine .of_find (fun s => s.uavs.find? slot)
    (fun first => checkRedeclared "u" slot first inst) (fun _ _ => rfl)
    (fun first => checkRedeclared_asks _ _ first inst) (fun env s first found => ?_)
    fun env s t missing ran => ?_
  · rw [run_state_bind, found]
  · rw [run_state_bind, missing] at ran
    obtain ⟨⟨made, binding⟩, u, new, rest⟩ := run_bind_eq_ok.1 ran
    have agrees := newUav_agrees inst slot notResource _ _ _ _ new
    have entered (s : State) := s.uavs.find?_insert_self slot made
    have found : t.uavs.find? slot = some made := Gives.of_run
      (fun _ t => t.uavs.find? slot = some made) rest <|
      .ite (.bind fun _ => .bind fun _ => .bind fun _ => .note entered)
        (.bind fun _ => .bind fun _ => .note entered)
    exact ⟨made, found, checkRedeclared_run agrees _ _ _ _⟩

end Lower

/-- No step takes temporaries away. -/
theorem Emits.size_temps_le (emits : Emits s t) : s.temps.size ≤ t.temps.size := by
  induction emits with
  | refl => exact Nat.le_refl _
  | step _ last ih =>
    refine Nat.le_trans ih ?_
    cases last with
    | temp =>
      rw [Array.size_push]
      exact Nat.le_succ _
    | note _ same => exact Nat.le_of_eq (congrArg Array.size same.temps.symm)
    | _ => exact Nat.le_refl _

/-- A loop that adds a temporary in each round. -/
theorem Emission.size_temps_forIn {f : Nat → Unit → Emission (ForInStep Unit)}
    (each : ∀ n s r t, (f n ()).run env s = (.ok r, t) →
      r = .yield () ∧ s.temps.size + 1 ≤ t.temps.size) {list : List Nat} {s t : State} {r : Unit}
    (ran : (ForIn.forIn list () f : Emission Unit).run env s = (.ok r, t)) :
    s.temps.size + list.length ≤ t.temps.size := by
  induction list generalizing s with
  | nil =>
    cases ran
    exact Nat.le_refl _
  | cons n rest ih =>
    rw [List.forIn_cons] at ran
    obtain ⟨round, u, once, more⟩ := run_bind_eq_ok.1 ran
    obtain ⟨rfl, grown⟩ := each n s round u once
    have whole := ih more
    rw [List.length_cons]
    omega

namespace Lower

open Emission

theorem declareTemps_grows {count : Nat} (ran : (declareTemps count).run env s = (.ok (), t)) :
    count ≤ t.temps.size := by
  unfold declareTemps at ran
  split at ran
  · cases ran
  rw [run_state_bind] at ran
  obtain ⟨_, u, loop, ended⟩ := run_bind_eq_ok.1 ran
  cases ended
  have grown := size_temps_forIn (fun n s r t round => ?_) loop
  · rw [List.length_range'] at grown
    omega
  obtain ⟨type, s₁, typed, round⟩ := run_bind_eq_ok.1 round
  obtain ⟨pointer, s₂, pointed, round⟩ := run_bind_eq_ok.1 round
  obtain ⟨id, s₃, made, round⟩ := run_bind_eq_ok.1 round
  obtain ⟨_, s₄, listed, round⟩ := run_bind_eq_ok.1 round
  obtain ⟨_, s₅, named, round⟩ := run_bind_eq_ok.1 round
  cases round
  refine ⟨rfl, ?_⟩
  have typed_ := (emits_of_run typed).size_temps_le
  have pointed_ := (emits_of_run pointed).size_temps_le
  have listed_ := (emits_of_run listed).size_temps_le
  have named_ := (emits_of_run named).size_temps_le
  have one : s₃.temps.size = s₂.temps.size + 1 := by
    cases made
    exact Array.size_push _
  omega

theorem declareTemps_idempotent (count : Nat) : Idempotent (declareTemps count) := by
  intro env s t last? ran
  have grown : count ≤ t.temps.size := declareTemps_grows ran
  have enough : count - (t.remember last?).temps.size = 0 := Nat.sub_eq_zero_of_le grown
  unfold declareTemps at ran ⊢
  split at ran
  · cases ran
  next few =>
  rw [if_neg few, run_state_bind]
  extract_lets size
  rw [show count - size = 0 from enough]
  rfl

end Lower

namespace HullState

theorem declareOutputPrimitive_again (h : HullState) (phase : HullPhase) (n : UInt32) :
    { declareOutputPrimitive { h.declareOutputPrimitive n with phase } n with phase } =
      { h.declareOutputPrimitive n with phase } := by
  unfold declareOutputPrimitive
  split
  · rfl
  · rfl
  · rfl
  · split <;> first | contradiction | rfl

/-- What is declared of the whole shader may be declared again. -/
theorem declare_again (h : HullState) (phase : HullPhase) (inst : Instruction) :
    { declare { h.declare inst with phase } inst with phase } =
      { h.declare inst with phase } := by
  unfold declare
  split
  · rfl
  · rfl
  · rfl
  · rfl
  · exact h.declareOutputPrimitive_again phase _
  · rfl
  · split <;> first | contradiction | rfl

/-- A change of the open phase that may be made again. -/
theorem modifyPhase?_again {h h' : HullState} {f : PatchPhase → PatchPhase}
    (again : ∀ phase, f (f phase) = f phase) (modified : h.modifyPhase? f = some h') :
    h'.modifyPhase? f = some h' ∧ h'.phase = h.phase := by
  have twice (phases : List PatchPhase) (n : Nat) :
      (phases.modify n f).modify n f = phases.modify n f := by
    rw [List.modify_modify_eq]
    congr 1
    funext phase
    exact again phase
  unfold modifyPhase? at modified
  split at modified
  · next here =>
    split at modified
    · next inside =>
      cases modified
      refine ⟨?_, rfl⟩
      simp only [modifyPhase?, here, List.length_modify, if_pos inside, twice]
    · cases modified
  · next here =>
    split at modified
    · next inside =>
      cases modified
      refine ⟨?_, rfl⟩
      simp only [modifyPhase?, here, List.length_modify, if_pos inside, twice]
    · cases modified
  · cases modified

end HullState

namespace Lower

open Emission

/-- A hull shader is told something that may be told again. -/
theorem updateHull_idempotent {f : HullState → Option HullState} {fault : Fault}
    (again : ∀ h h', f h = some h' → ∃ h'', f { h' with phase := h.phase } = some h'' ∧
      { h'' with phase := h.phase } = { h' with phase := h.phase }) :
    Idempotent (hullState >>= fun h => orFault (f h) fault >>= updateHullState) := by
  have run (env : Environment) (s : State) (h : HullState) :
      (hullState >>= fun h => orFault (f h) fault >>= updateHullState).run env
        (s.inStage (.hull h)) =
      (orFault (f h) fault >>= updateHullState).run env (s.inStage (.hull h)) := rfl
  have tells (env : Environment) (s : State) {h h' : HullState} (told : f h = some h') :
      (hullState >>= fun h => orFault (f h) fault >>= updateHullState).run env
        (s.inStage (.hull h)) =
      (.ok (), s.inStage (.hull { h' with phase := h.phase })) := by
    rw [run, told]
    rfl
  refine InterfaceStep.Idempotent.of_stages fun stage env s t last? ran => ?_
  cases stage with
  | hull h =>
    cases told : f h with
    | none =>
      rw [run, told] at ran
      cases ran
    | some h' =>
      rw [tells env s told] at ran
      cases ran
      obtain ⟨h'', toldAgain, same⟩ := again h h' told
      refine (tells env (s.remember last?) toldAgain).trans ?_
      rw [same]
      rfl
  | _ => cases ran

theorem lowerHullDeclaration_idempotent (inst : Instruction) :
    Idempotent (lowerHullDeclaration inst) := by
  have count : Idempotent (declareInstanceCount inst) := updateHull_idempotent fun h h' told => by
    obtain ⟨toldAgain, phase⟩ := HullState.modifyPhase?_again (by exact fun _ => rfl) told
    rw [← phase]
    exact ⟨h', toldAgain, rfl⟩
  unfold lowerHullDeclaration
  split
  · exact count
  · exact count
  · exact @updateHull_idempotent (fun h => some (h.declare inst)) .notInHull fun h h' told => by
      cases told
      exact ⟨_, rfl, h.declare_again h.phase inst⟩

theorem requireFirstStream_asks (inst : Instruction) (stream? : Option UInt32) :
    Asks (requireFirstStream inst stream?) :=
  .ite (unsupported_asks inst) (.pure ())

/-- The extents of a thread group stay once they are declared. -/
theorem threadGroup_again (x y z : UInt32) (declared : List UInt32) :
    ∃ x' y' z', StageState.threadGroup [x, y, z] declared = [x', y', z'] ∧
      StageState.threadGroup [x', y', z'] declared = [x', y', z'] := by
  rcases declared with - | ⟨a, - | ⟨b, - | ⟨c, rest⟩⟩⟩
  · exact ⟨_, _, _, rfl, rfl⟩
  · exact ⟨_, _, _, rfl, rfl⟩
  · exact ⟨_, _, _, rfl, rfl⟩
  · exact ⟨max a 1, max b 1, max c 1, by simp [StageState.threadGroup],
      by simp [StageState.threadGroup]⟩

theorem lowerThreadGroup_run {inst : Instruction} {x y z x' y' z' : UInt32}
    (group : StageState.threadGroup [x, y, z] inst.imm = [x', y', z']) (env : Environment)
    (s : State) :
    (lowerStageDeclaration inst .dclThreadGroup).run env (s.inStage (.compute x y z)) =
      (.ok (), s.inStage (.compute x' y' z')) := by
  unfold lowerStageDeclaration
  rw [run_state_bind]
  simp only [State.inStage, group]
  rfl

section Geometry

variable {inst : Instruction} {primitive? : Option Spirv.ExecutionMode} {vertices : Nat}
  {topology? : Option Spirv.ExecutionMode} {maxVertices instances : UInt32}

theorem lowerInputPrimitive_eq_ok : (lowerStageDeclaration inst .dclGsInputPrimitive).run env
    (s.inStage (.geometry primitive? vertices topology? maxVertices instances)) = (.ok (), t) ↔
    ∃ primitive n, inputPrimitive? inst.inputPrimitive = some (primitive, n) ∧
      t = s.inStage (.geometry (some primitive) n topology? maxVertices instances) := by
  unfold lowerStageDeclaration
  rw [run_state_bind]
  simp only [State.inStage, lowerGeometryDeclaration]
  cases inputPrimitive? inst.inputPrimitive with
  | none =>
    constructor
    · intro ran
      cases ran
    · rintro ⟨_, _, is, _⟩
      cases is
  | some found =>
    obtain ⟨primitive, n⟩ := found
    constructor
    · intro ran
      cases ran
      exact ⟨primitive, n, rfl, rfl⟩
    · rintro ⟨_, _, is, rfl⟩
      cases is
      rfl

theorem lowerOutputTopology_eq_ok :
    (lowerStageDeclaration inst .dclGsOutputPrimitiveTopology).run env
      (s.inStage (.geometry primitive? vertices topology? maxVertices instances)) = (.ok (), t) ↔
    ∃ topology, outputTopology? inst.outputTopology = some topology ∧
      t = s.inStage (.geometry primitive? vertices (some topology) maxVertices instances) := by
  unfold lowerStageDeclaration
  rw [run_state_bind]
  simp only [State.inStage, lowerGeometryDeclaration]
  cases outputTopology? inst.outputTopology with
  | none =>
    constructor
    · intro ran
      cases ran
    · rintro ⟨_, is, _⟩
      cases is
  | some topology =>
    constructor
    · intro ran
      cases ran
      exact ⟨topology, rfl, rfl⟩
    · rintro ⟨_, is, rfl⟩
      cases is
      rfl

end Geometry

theorem lowerStageDeclaration_hull {inst : Instruction} {op : Opcode}
    (isHull : s.stage.hull?.isSome = true) (other : op ≠ .dclGlobalFlags) :
    (lowerStageDeclaration inst op).run env s = (lowerHullDeclaration inst).run env s := by
  unfold lowerStageDeclaration
  rw [run_state_bind]
  cases stage : s.stage with
  | hull h =>
    split
    · contradiction
    · contradiction
    · rfl
    · contradiction
    · contradiction
    · contradiction
    · contradiction
    · next notHull _ _ _ _ _ => exact (notHull h rfl).elim
  | _ =>
    rw [stage] at isHull
    cases isHull

/-- A declaration for the stage as a whole may be repeated in every stage. -/
theorem lowerStageDeclaration_idempotent (inst : Instruction) {op : Opcode}
    (known : op.isStageDeclaration = true) : Idempotent (lowerStageDeclaration inst op) := by
  refine InterfaceStep.Idempotent.of_stages fun stage env s t last? ran => ?_
  unfold Opcode.isStageDeclaration at known
  cases stage with
  | vertex =>
    split at known
    all_goals first | (cases ran; rfl) | cases known
  | pixel depthMode? early =>
    split at known
    all_goals first | (cases ran; rfl) | cases known
  | compute x y z =>
    split at known
    case h_2 =>
      obtain ⟨x', y', z', group, again⟩ := threadGroup_again x y z inst.imm
      rw [lowerThreadGroup_run group] at ran
      cases ran
      exact lowerThreadGroup_run again env (s.remember last?)
    all_goals first | (cases ran; rfl) | cases known
  | geometry =>
    split at known
    case h_3 =>
      obtain ⟨primitive, n, is, rfl⟩ := lowerInputPrimitive_eq_ok.1 ran
      exact lowerInputPrimitive_eq_ok (s := s.remember last?).2 ⟨_, _, is, rfl⟩
    case h_4 =>
      obtain ⟨topology, is, rfl⟩ := lowerOutputTopology_eq_ok.1 ran
      exact lowerOutputTopology_eq_ok (s := s.remember last?).2 ⟨_, is, rfl⟩
    case h_7 =>
      obtain ⟨rfl, everywhere⟩ := (requireFirstStream_asks inst _).run_eq ran
      exact everywhere _
    all_goals first | (cases ran; rfl) | cases known
  | domain points domain? =>
    split at known
    all_goals first | (cases ran; rfl) | cases known
  | hull h =>
    by_cases flags : op = .dclGlobalFlags
    · subst flags
      cases ran
      rfl
    · rw [lowerStageDeclaration_hull rfl flags] at ran
      have isHull : (t.remember last?).stage.hull?.isSome = true := by
        have kept := ((lowerHullDeclaration inst).keeps env (s.inStage (.hull h))).phase?
        rw [ran] at kept
        rw [← Option.isSome_map (f := (·.phase))]
        exact congrArg Option.isSome kept
      rw [lowerStageDeclaration_hull isHull flags]
      exact lowerHullDeclaration_idempotent inst env _ t last? ran

theorem routedValues_asks (side : Side) (reg : UInt32) (mask : WriteMask)
    (value? : Option SystemValue) : Asks (routedValues side reg mask value?) := by
  refine .read_bind fun env => ?_
  extract_lets stage fromSignature
  have signature : Asks fromSignature := .bind (.read_bind fun _ => .pure _) fun _ => .pure _
  split
  · exact .ite (.pure _) signature
  · exact signature

theorem setRegister_there {side : Side} {reg : UInt32} {r : InterfaceRegister}
    (there : (s.registers side).insert reg r = s.registers side) :
    (setRegister side reg r).run env s = (.ok (), s) := by
  cases side with
  | input =>
    change (.ok (), { s with inputs := (s.registers .input).insert reg r }) = (Except.ok (), s)
    rw [there]
    rfl
  | output =>
    change (.ok (), { s with outputs := (s.registers .output).insert reg r }) = (Except.ok (), s)
    rw [there]
    rfl
  | patchInput =>
    change (.ok (), { s with patchInputs := (s.registers .patchInput).insert reg r }) =
      (Except.ok (), s)
    rw [there]
    rfl
  | patchOutput =>
    change (.ok (), { s with patchOutputs := (s.registers .patchOutput).insert reg r }) =
      (Except.ok (), s)
    rw [there]
    rfl

/-- What is declared of a register already need not be declared again. -/
theorem declareRegister_run {side : Side} {reg : UInt32} {mask : WriteMask}
    {value? : Option SystemValue} {mode : Interpolation} {r : InterfaceRegister}
    {values : List (WriteMask × SystemValue)} (inRange : ¬maxInterfaceRegisters ≤ reg.toNat)
    (routes : (routedValues side reg mask value?).run env s = (.ok values, s))
    (found : s.register side reg = r) (declared : r.declare mask values = r)
    (there : (s.registers side).insert reg r = s.registers side)
    (located : ¬(r.location?.isNone ∧ ¬r.userMask.isEmpty)) :
    (declareRegister side reg mask value? mode).run env s = (.ok (), s) := by
  unfold declareRegister
  rw [if_neg inRange]
  refine InterfaceStep.run_bind_eq_ok.2 ⟨values, s, routes, ?_⟩
  refine InterfaceStep.run_bind_eq_ok.2 ⟨r, s, by rw [← found]; exact register_run, ?_⟩
  rw [declared]
  refine InterfaceStep.run_bind_eq_ok.2 ⟨(), s, setRegister_there there, ?_⟩
  rw [if_neg located]
  rfl

theorem declareRegister_idempotent (side : Side) (reg : UInt32) (mask : WriteMask)
    (value? : Option SystemValue) (mode : Interpolation) :
    (declareRegister side reg mask value? mode).Idempotent := by
  intro env s t last? ran
  have inRange : ¬maxInterfaceRegisters ≤ reg.toNat := by
    intro outside
    unfold declareRegister at ran
    rw [if_pos outside] at ran
    cases ran
  obtain ⟨values, _, u, routes, rfl, sets, rest⟩ := declareRegister_parts ran
  have routesAgain := ((routedValues_asks side reg mask value?).run_eq routes).2 (t.remember last?)
  rcases rest with ⟨_, l, v, _, last⟩ | ⟨present, rfl⟩
  · refine declareRegister_run inRange routesAgain last.register
      (InterfaceRegister.declare_again _ _ _ _) ?_ ?_
    · change (t.registers side).insert reg _ = t.registers side
      rw [last.registers, Table.insert_insert_self]
    · rintro ⟨missing, _⟩
      cases missing
  · refine declareRegister_run inRange routesAgain sets.register
      (InterfaceRegister.declare_again _ _ _ _) ?_ present
    change (t.registers side).insert reg _ = t.registers side
    rw [sets.registers, Table.insert_insert_self]

theorem lowerInputDeclaration_idempotent (inst : Instruction) :
    (lowerInputDeclaration inst).Idempotent := by
  unfold lowerInputDeclaration
  split
  · next op _ =>
    split
    · exact .bind (orFault_asks _ _) fun reg => declareRegister_idempotent _ _ _ _ _
    · exact .bind (orFault_asks _ _) fun reg => declareRegister_idempotent _ _ _ _ _
    · exact .bind (fun _ _ _ => ⟨rfl, rfl⟩) fun env => .ite
        (fun _ => .bind (orFault_asks _ _) fun reg => declareRegister_idempotent _ _ _ _ _)
        fun _ => .pure
    · exact .pure
  · exact .of_asks (failWith_asks _)

theorem setDepthMode_idempotent (mode : Spirv.ExecutionMode) : Idempotent (setDepthMode mode) := by
  refine InterfaceStep.Idempotent.of_stages fun stage env s t last? ran => ?_
  cases stage with
  | _ =>
    cases ran
    rfl

/-- The side on which an output is declared. -/
def outputSide (env : Environment) (s : State) : Side :=
  if env.stage = .hull ∧ ¬s.stage.inControlPointPhase then .patchOutput else .output

theorem lowerOutputDeclaration_run {inst : Instruction} {op : Operand}
    (head : inst.dst.head? = some op) (isOutput : op.type = .output) (env : Environment)
    (s : State) : (lowerOutputDeclaration inst).run env s =
      (liftM (orFault (op.index? 0) (.declarationWithoutRegister "output declaration")) >>=
        fun reg => declareRegister (outputSide env s) reg op.mask (declaredValue? inst)
          .undefined).run env s := by
  unfold lowerOutputDeclaration
  rw [head]
  dsimp only
  rw [isOutput]
  cases op.index? 0 <;> rfl

theorem lowerOutputDeclaration_idempotent (inst : Instruction) :
    (lowerOutputDeclaration inst).Idempotent := by
  cases head : inst.dst.head? with
  | none =>
    unfold lowerOutputDeclaration
    rw [head]
    exact .of_asks (failWith_asks _)
  | some op =>
    by_cases isOutput : op.type = .output
    · intro env s t last? ran
      rw [lowerOutputDeclaration_run head isOutput] at ran ⊢
      obtain ⟨reg, u, found, declared⟩ := InterfaceStep.run_bind_eq_ok.1 ran
      obtain ⟨_, rfl⟩ := orFault_interface_eq_ok.1 found
      have side : outputSide env (t.remember last?) = outputSide env u := by
        unfold outputSide
        rw [State.inControlPointPhase_eq, State.inControlPointPhase_eq]
        rw [← declareRegister_phase declared]
        rfl
      rw [side]
      exact InterfaceStep.run_bind_eq_ok.2 ⟨reg, _, ((orFault_asks _ _).run_eq found).2 _,
        declareRegister_idempotent _ _ _ _ _ _ _ _ last? declared⟩
    · unfold lowerOutputDeclaration
      rw [head]
      dsimp only
      split
      · contradiction
      · exact setDepthMode_idempotent _
      · exact setDepthMode_idempotent _
      · exact setDepthMode_idempotent _
      · exact .pure

/-- A declaration of registers or resources may be repeated. -/
theorem lowerRegisterDeclaration_idempotent {inst : Instruction} {op : Opcode}
    (known : inst.op? = some op) : (lowerRegisterDeclaration inst op).Idempotent := by
  unfold lowerRegisterDeclaration
  dsimp only
  split
  · exact declareTemps_idempotent _
  · exact declareIndexableTemp_idempotent _ _
  · exact .bind (groupMemoryRegister_asks inst) fun reg => declareGroupMemory_idempotent _ _ _
  · exact lowerStructuredGroupMemory_idempotent inst _ _
  all_goals first
    | exact lowerInputDeclaration_idempotent inst
    | exact lowerOutputDeclaration_idempotent inst
    | exact lowerConstantBufferDeclaration_idempotent inst
    | exact lowerSamplerDeclaration_idempotent inst
    | exact lowerResourceDeclaration_idempotent inst (by simp [known])
    | exact lowerUavDeclaration_idempotent inst (by simp [known])
    | exact .of_asks (unsupported_asks inst)
    | exact .pure

theorem lowerDeclaration_idempotent (inst : Instruction) : (lowerDeclaration inst).Idempotent := by
  unfold lowerDeclaration
  split
  · next op known =>
    exact .ite (fun stage => lowerStageDeclaration_idempotent inst stage) fun _ =>
      lowerRegisterDeclaration_idempotent known
  · exact .pure

theorem lowerCustomData_idempotent (inst : Instruction) : Idempotent (lowerCustomData inst) := by
  unfold lowerCustomData
  split
  · exact lowerImmediateConstants_idempotent _
  · exact InterfaceStep.Idempotent.pure

theorem lowerByFamily_customData {inst : Instruction} (family : inst.family = .customData) :
    result (lowerByFamily inst) env s = (lowerCustomData inst).run env s := by
  unfold lowerByFamily
  rw [family]
  rfl

/-- An instruction that declares something may be repeated. -/
theorem lowerInstruction_idempotent {inst : Instruction}
    (declares : inst.family = .declaration ∨ inst.family = .customData)
    (ran : result (lowerInstruction inst) env s = (.ok (), t)) :
    result (lowerInstruction inst) env t = (.ok (), t) := by
  obtain ⟨m, again, runs⟩ : ∃ m : InterfaceStep Unit, m.Idempotent ∧
      ∀ env s, result (lowerByFamily inst) env s = m.run env s := by
    rcases declares with family | family
    · exact ⟨_, lowerDeclaration_idempotent inst, fun _ _ => lowerByFamily_declaration family⟩
    · exact ⟨_, lowerCustomData_idempotent inst, fun _ _ => lowerByFamily_customData family⟩
  obtain ⟨_, u, lowered, remembered⟩ := result_bind_eq_ok.1 ran
  cases remembered
  rw [runs] at lowered
  refine result_bind_eq_ok.2 ⟨(), u.remember (some inst.opcode), ?_, rfl⟩
  rw [runs]
  exact again env s u (some inst.opcode) lowered

end Lower

namespace Lowering

variable {l m : Lowering} {inst : Instruction}

/-- An instruction that declares something may be repeated: if it is taken once, it is taken again
and changes nothing. -/
theorem step_again (declares : inst.family = .declaration ∨ inst.family = .customData)
    (taken : l.step inst = (.ok (), m)) : m.step inst = (.ok (), m) := by
  obtain ⟨ran, same⟩ := step_eq_ok.1 taken
  refine step_eq_ok.2 ⟨?_, rfl⟩
  rw [same]
  exact Lower.lowerInstruction_idempotent declares ran

/-- A pixel shader before any of its instructions. -/
def unreadPixel : Lowering :=
  ⟨⟨.pixel, .default, .empty, .empty, .empty, .ofProgram [] .empty .empty⟩,
    .initial ⟨1, 3⟩ (.pixel none false)⟩

/-- Two components of an input register, which get a location variable. -/
def pairInput : Instruction :=
  { (default : Instruction) with
    opcode := Opcode.dclInputPs.code
    family := .declaration
    dst := [{ (default : Operand) with type := .input, mask := ⟨3⟩, indices := [⟨1, none⟩] }] }

theorem step_again_pairInput : ∃ m, pairInput.family = .declaration ∧
    unreadPixel.step pairInput = (.ok (), m) ∧
    (m.state.register .input 1).location?.isSome = true ∧ m.step pairInput = (.ok (), m) := by
  have taken : unreadPixel.step pairInput = (.ok (), (unreadPixel.step pairInput).2) :=
    Prod.ext rfl rfl
  exact ⟨_, rfl, taken, rfl, step_again (.inl rfl) taken⟩

end Lowering

end ShaderLowering
