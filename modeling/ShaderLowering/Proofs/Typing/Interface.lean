import ShaderLowering.Lowering.Interface
import ShaderLowering.Proofs.Typing.Operands

/-!
What the stage interface yields. A location variable is arrayed over the vertices that are known
when its register is declared, and the copies at the ends of the program go through those vertices
one by one.
-/

namespace ShaderLowering

open Spirv (Id Module StorageClass)

theorem Side.vertices_eq_zero {side : Side} {stage : ShaderStage} {v : VertexCounts}
    (input : side = .input → stage.hasVertices = false) (output : side = .output → stage ≠ .hull) :
    side.vertices stage v = 0 := by
  cases side with
  | input => exact if_neg (by simp [input rfl])
  | output => exact if_neg (output rfl)
  | patchInput | patchOutput => rfl

namespace Lower

variable {x : Shader} {v : VertexCounts} {m : Module} {side : Side} {reg : UInt32}

@[grind ←]
theorem signatureOf_safe (side : Side) : Safe x v m (signatureOf side).run :=
  .read_bind (.pure _)

@[grind ←]
theorem decorateInterpolation_safe (id : Id) (component : ComponentType) (mode : Interpolation) :
    Safe x v m (decorateInterpolation id component mode).run := by
  unfold decorateInterpolation
  grind

theorem register_yields (side : Side) (reg : UInt32) :
    Yields x v m (register side reg).run fun r n => x.Register n side r := by
  have known {s : State} {n : Module} (grows : s.builder.module.Grows n)
      {t : Table InterfaceRegister} (all : x.Registers s.builder.module side t) :
      x.Register n side ((t.find? reg).getD .empty) := by
    cases found : t.find? reg with
    | none => exact ⟨nofun, fun _ _ => nofun⟩
    | some r => exact (all.find? found).2.mono grows
  refine .state_bind fun s hs _ => .pure fun n grows => ?_
  cases side with
  | input => exact known grows hs.tables.inputs
  | output => exact known grows hs.tables.outputs
  | patchInput => exact known grows hs.tables.patchInputs
  | patchOutput => exact known grows hs.tables.patchOutputs

theorem setRegister_safe {r : InterfaceRegister} (bound : reg.toNat < maxInterfaceRegisters)
    (known : x.Register m side r) : Safe x v m (setRegister side reg r).run := by
  cases side <;>
    refine Yields.noteTables (fun _ => rfl) (fun _ => rfl) (fun _ => rfl) fun s tables grows => ?_
  · exact { tables with inputs := tables.inputs.insert ⟨bound, known.mono grows⟩ }
  · exact { tables with outputs := tables.outputs.insert ⟨bound, known.mono grows⟩ }
  · exact { tables with patchInputs := tables.patchInputs.insert ⟨bound, known.mono grows⟩ }
  · exact { tables with patchOutputs := tables.patchOutputs.insert ⟨bound, known.mono grows⟩ }

theorem outputVertices_yields (hull : x.env.stage = .hull) {α : Type} {f : Nat → Emission α}
    {post : α → Module → Prop}
    (later : ∀ n, m.Grows n → Yields x v n (f (Side.output.vertices x.env.stage v)).run post) :
    Yields x v m (do
      let vertices ← pure (← Emission.state).stage.outputVertices
      f vertices : Emission α).run post := by
  refine .state_bind fun s hs grows => ?_
  have is : s.stage.outputVertices = Side.output.vertices x.env.stage v := by
    rw [Side.vertices, if_pos hull, hs.outputs]
  rw [is]
  exact later s.builder.module grows

/-- A location variable is plain: its length is a number of vertices that the program declares. -/
theorem location_isPlain {type : VectorType} (four : type.count = 4) {w : VertexCounts}
    (sees : side.isArrayed x.env.stage = true → x.Sees w) :
    ((Shape.vector type).arrayOf (side.vertices x.env.stage w)).IsPlain x := by
  refine (Shape.isPlain_vector x (Nat.le_of_eq four)).arrayOf fun some_ _ => .inr (.inr ⟨w, ?_⟩)
  cases side with
  | input =>
    refine ⟨sees ?_, .inl rfl⟩
    by_contra none_
    exact some_ (if_neg none_)
  | output =>
    by_cases hull : x.env.stage = .hull
    · exact ⟨sees (decide_eq_true hull), .inr (by rw [Side.vertices, if_pos hull])⟩
    · exact absurd (if_neg hull) some_
  | patchInput => exact absurd rfl some_
  | patchOutput => exact absurd rfl some_

theorem newLocation_yields (side : Side) (reg : UInt32) (declared : Interpolation)
    (sees : side.isArrayed x.env.stage = true → x.Sees v) :
    Yields x v m (newLocation side reg declared).run fun l n => x.Location n side l := by
  refine .read_bind (.after (signatureOf_safe side) fun signature n _ => ?_)
  extract_lets component element? scalar type inSignature jp
  have number : scalar ≠ .bool := by
    unfold scalar
    split
    · cases component <;> decide
    · cases component <;> decide
    · decide
  have made (o : Module) (vertices : Nat) (is : vertices = side.vertices x.env.stage v) :
      Yields x v o (jp vertices).run fun l n => x.Location n side l := by
    subst is
    refine .bind (vectorType_yields type) fun element n₁ _ is => ?_
    refine .bind (arrayOf_yields is _) fun pointee n₂ _ is => ?_
    refine .bind (newVariable_yields is (fun _ => location_isPlain rfl sees) none)
      fun id n₃ _ houses => ?_
    have known : x.Location n₃ side ⟨id, type, side.vertices x.env.stage v⟩ :=
      ⟨rfl, number, ⟨v, sees, rfl⟩, houses⟩
    extract_lets last next
    have named (o : Module) (grows : n₃.Grows o) :
        Yields x v o (last ()).run fun l n => x.Location n side l := by
      refine .after (name_safe id _) fun _ p later => .pure fun q latest => ?_
      exact known.mono ((grows.trans later).trans latest)
    have placed (o : Module) (grows : n₃.Grows o) :
        Yields x v o (next ()).run fun l n => x.Location n side l :=
      .optional (decorateInterpolation_safe _ _ _) fun p later => named p (grows.trans later)
    refine .ite (fun _ => ?_) fun _ => ?_
    · refine .after (decorate_safe rfl _ _) fun _ o grows => ?_
      exact .after (decorate_safe rfl _ _) fun _ p later => placed p (grows.trans later)
    · exact .after (decorate_safe rfl _ _) fun _ p later => placed p later
  split
  · exact .bind inputVertexCount_yields fun vertices o _ is => made o vertices is
  · exact .bind inputVertexCount_yields fun vertices o _ is => made o vertices is
  · exact .bind inputVertexCount_yields fun vertices o _ is => made o vertices is
  · next hull => exact outputVertices_yields hull fun o _ => made o _ rfl
  · next geometry hull domain output =>
    refine .pureBind (made n 0 (Side.vertices_eq_zero (fun is => ?_)
      fun is stage => output stage is).symm)
    cases stage : x.env.stage with
    | geometry => exact (geometry stage is).elim
    | hull => exact (hull stage is).elim
    | domain => exact (domain stage is).elim
    | vertex | pixel | compute | unknown => rfl

/-- Only system values of tessellation factors that there are come from patch constants. -/
theorem routedValues_yields {mask : WriteMask} {value? : Option SystemValue}
    (proper : ∀ value, value? = some value → value.IsProper) :
    Yields x v m (routedValues side reg mask value?).run fun values _ =>
      side.isPatch = true → ∀ p ∈ values, p.2.IsProper := by
  refine .read_bind ?_
  extract_lets stage fromSignature
  have signature : Yields x v m fromSignature.run fun values _ =>
      side.isPatch = true → ∀ p ∈ values, p.2.IsProper := by
    refine .read_bind (.pureBind (.pure fun _ _ isPatch p hp => ?_))
    obtain ⟨e, he, is⟩ := List.mem_filterMap.1 hp
    have mem : e ∈ x.env.patch.elements := by
      cases side with
      | input | output => cases isPatch
      | patchInput | patchOutput => exact (List.mem_filter.1 he).1
    dsimp only at is
    split at is
    · cases is
      exact x.proper e mem
    · cases is
  split
  · next value =>
    refine .ite (fun _ => .pure fun _ _ _ p hp => ?_) fun _ => signature
    split at hp
    · rw [List.mem_singleton.1 hp]
      exact proper value rfl
    · cases hp
  · exact signature

theorem InterfaceRegister.mem_declare {r : InterfaceRegister} {mask : WriteMask}
    {values : List (WriteMask × SystemValue)} {p : WriteMask × SystemValue}
    (h : p ∈ (r.declare mask values).systemValues) : p ∈ r.systemValues ∨ p ∈ values := by
  unfold InterfaceRegister.declare at h
  dsimp only at h
  generalize r.systemValues = found at h
  induction values generalizing found with
  | nil => exact .inl h
  | cons q rest ih =>
    rw [List.foldl_cons] at h
    rcases ih _ h with h | h
    · split at h
      · exact .inl h
      · rcases List.mem_append.1 h with h | h
        · exact .inl h
        · exact .inr (List.mem_singleton.1 h ▸ List.mem_cons_self)
    · exact .inr (List.mem_cons_of_mem _ h)

theorem declareRegister_safe {mask : WriteMask} {value? : Option SystemValue}
    (mode : Interpolation) (sees : side.isArrayed x.env.stage = true → x.Sees v)
    (proper : ∀ value, value? = some value → value.IsProper) :
    Safe x v m (declareRegister side reg mask value? mode).run := by
  refine .iteInterface (fun _ => .failBindInterface) fun bound => ?_
  have bound : reg.toNat < maxInterfaceRegisters := by omega
  refine .bindInterface (routedValues_yields proper) fun values n₁ _ proper => ?_
  refine .bindInterface (register_yields side reg) fun r n₂ _ known => ?_
  have declared : x.Register n₂ side (r.declare mask values) := by
    refine ⟨known.location, fun isPatch p hp => ?_⟩
    exact (InterfaceRegister.mem_declare hp).elim (known.values isPatch p) (proper isPatch p)
  refine .afterInterface (setRegister_safe bound declared) fun _ n₃ grows => ?_
  refine .iteInterface (fun _ => ?_) fun _ => .pureInterface fun _ _ => trivial
  refine .bindInterface (newLocation_yields side reg mode sees) fun l n₄ later new => ?_
  refine setRegister_safe bound ⟨fun _ is => ?_, declared.values⟩
  cases is
  exact new

theorem proper_declaredValue {inst : Instruction} {value : SystemValue}
    (h : declaredValue? inst = some value) : value.IsProper := by
  unfold declaredValue? at h
  split at h
  · obtain ⟨code, _, rfl⟩ := Option.map_eq_some_iff.1 h
    exact SystemValue.isProper_ofCode code
  · cases h

theorem lowerInputDeclaration_safe {inst : Instruction} (sees : x.Sees v) :
    Safe x v m (lowerInputDeclaration inst).run := by
  have declare (side : Side) (reg : UInt32) (mask : WriteMask) :
      Safe x v m (declareRegister side reg mask (declaredValue? inst) (declaredMode inst)).run :=
    declareRegister_safe _ (fun _ => sees) fun _ => proper_declaredValue
  unfold lowerInputDeclaration
  split
  · split
    · exact .demandInterface fun reg _ => declare .input reg _
    · exact .demandInterface fun reg _ => declare .input reg _
    · refine .readInterface (.iteInterface (fun _ => ?_) fun _ => .pureInterface fun _ _ => trivial)
      exact .demandInterface fun reg _ => declare .patchInput reg _
    · exact Yields.pureInterface fun _ _ => trivial
  · exact Yields.failInterface

theorem setDepthMode_safe (mode : Spirv.ExecutionMode) : Safe x v m (setDepthMode mode).run := by
  refine Yields.state_bind fun s hs _ => ?_
  split
  · next depth early stage =>
    have kind := hs.kind
    have inputs := hs.inputs
    have outputs := hs.outputs
    rw [stage] at kind inputs outputs
    exact .note (fun _ => rfl) fun t ht _ => ⟨ht.become rfl kind inputs outputs, .refl _, trivial⟩
  · exact .pure fun _ _ => trivial

theorem lowerOutputDeclaration_safe {inst : Instruction}
    (sees : x.env.stage = .hull → x.Sees v) : Safe x v m (lowerOutputDeclaration inst).run := by
  have declare (side : Side) (reg : UInt32) (mask : WriteMask)
      (isOutput : side = .output ∨ side = .patchOutput) :
      Safe x v m (declareRegister side reg mask (declaredValue? inst) .undefined).run := by
    refine declareRegister_safe _ (fun arrayed => ?_) fun _ => proper_declaredValue
    rcases isOutput with rfl | rfl
    · exact sees (of_decide_eq_true arrayed)
    · cases arrayed
  unfold lowerOutputDeclaration
  split
  · split
    · refine .demandInterface fun reg _ => .readInterface (.stateInterface fun s _ grows => ?_)
      refine (declare _ reg _ ?_).grow grows
      split
      · exact .inr rfl
      · exact .inl rfl
    · exact setDepthMode_safe _
    · exact setDepthMode_safe _
    · exact setDepthMode_safe _
    · exact Yields.pureInterface fun _ _ => trivial
  · exact Yields.failInterface

end Lower

end ShaderLowering
