import ShaderLowering.Proofs.Memory.Copies

/-!
Copies word for word. Some things go along a route, one after the other, from variables that nothing
on the route is written to. So each arrives as it was when the first one left, and the stores that a
run adds to the record are known from the memory before it.
-/

namespace ShaderLowering

open Spirv (Id StorageClass BuiltIn Invocation World Address Memory Event)

namespace Signature

/-- The components that are tagged with a system value, register by register. -/
def tagged (s : Signature) (value : SystemValue) : List (UInt32 × Nat) :=
  (s.layoutOf value).flatMap fun p => p.2.components.map fun c => (p.1, c)

theorem length_tagged (s : Signature) (value : SystemValue) :
    (s.tagged value).length = s.componentsOf value := by
  simp only [tagged, componentsOf, List.length_flatMap, List.length_map]

/-- The tagged components with their numbers. -/
def numbered (s : Signature) (value : SystemValue) : List (UInt32 × Nat × Nat) :=
  (s.tagged value).zipIdx.map fun p => (p.1.1, p.1.2, p.2)

theorem lt_of_mem_numbered {s : Signature} {value : SystemValue} {i : UInt32 × Nat × Nat}
    (mem : i ∈ s.numbered value) : i.2.1 < 4 := by
  obtain ⟨⟨⟨reg, c⟩, k⟩, listed, rfl⟩ := List.mem_map.1 mem
  have tagged := List.mem_of_getElem? (List.mem_zipIdx_iff_getElem?.1 listed)
  obtain ⟨p, _, mem⟩ := List.mem_flatMap.1 tagged
  obtain ⟨c', hc, same⟩ := List.mem_map.1 mem
  cases same
  exact WriteMask.lt_of_mem_components hc

end Signature

namespace Lower

variable {w : World} {env : Environment} {s : State} {μ : Invocation}

/-- From the elements of an input built-in to components of the input registers. -/
def distanceInputs (builtin : BuiltIn) : Route ((UInt32 × Nat × Nat) × Option Nat) where
  size := 1
  source u i := (u.builtins.lookup (builtin, .input)).map fun b =>
    ⟨b.id, b.path (i.2.map asIndex) (some (asIndex i.1.2.2))⟩
  target u i := u.inputArray?.map fun array =>
    ⟨array, (i.2.map asIndex).toList ++ [i.1.1.toNat, i.1.2.1]⟩
  apart u parted i p j q source target := by
    obtain ⟨b, found, rfl⟩ := Option.map_eq_some_iff.1 source
    obtain ⟨array, is, rfl⟩ := Option.map_eq_some_iff.1 target
    have from_ : u.holder? (.port (.builtin builtin .input)) = some b.id :=
      congrArg (Option.map _) found
    exact parted.apart from_ (show u.holder? .inputs = some array from is) StorageClass.noConfusion

/-- All tagged components are below their count. -/
theorem numbered_layout (s : Signature) (value : SystemValue) :
    Lower.numbered (s.layoutOf value) (s.componentsOf value) = s.numbered value := by
  have inside (p : (UInt32 × Nat) × Nat) (mem : p ∈ (s.tagged value).zipIdx) :
      p.2 < s.componentsOf value := by
    have at_ := List.mem_zipIdx_iff_getElem?.1 mem
    rw [← s.length_tagged value]
    exact (List.getElem?_eq_some_iff.1 at_).1
  unfold Lower.numbered
  rw [Signature.numbered, ← List.filterMap_eq_map]
  exact List.filterMap_congr fun p mem => if_pos (inside p mem)

/-- A component is written for one vertex, or where there are none. -/
theorem writeInput_writes {v : Value} {scalar : ScalarType} {a : UInt32} {vertex? : Option Nat}
    {reg : UInt32} {c : Nat} (low : c < 4) (carries : s.Carries μ.processor v scalar [0] fun _ => a)
    (number : scalar ≠ .bool) (one : vertex? = none → s.vertexCount env = 0) :
    Performs w env (writeInput vertex? reg (.component c) v) s μ fun _ t ν => ∃ array,
      t.inputArray? = some array ∧
        μ.Wrote ν ⟨array, (vertex?.map asIndex).toList ++ [reg.toNat, c]⟩ [a] := by
  have only : (WriteMask.component c).components = [c] := by
    match c, low with
    | 0, _ | 1, _ | 2, _ | 3, _ => rfl
  unfold writeInput
  refine Looks.andThen (constant_looks reg) fun regId t ν since unmoved known => ?_
  refine Looks.andThen (.of_reads (bitcast_steady v .f32) (bitcast_reads number
    ⟨carries.type, since.knows carries.knows⟩ .f32)) fun u t₁ ν₁ since₁ unmoved₁ word => ?_
  have single : Performs w env (do
        for vertex? in [vertex?] do
          let vertexId? ← vertex?.mapM constantU32
          let p ← inputPointer vertexId? regId
          storeMasked p u (.component c)) t₁ ν₁ fun _ t ν => ∃ array,
        t.inputArray? = some array ∧
          μ.Wrote ν ⟨array, (vertex?.map asIndex).toList ++ [reg.toNat, c]⟩ [a] := by
    rw [List.forIn_cons]
    refine .bind (.bind (Q := fun r t ν => r = ForInStep.yield PUnit.unit ∧ ∃ array,
      t.inputArray? = some array ∧
        μ.Wrote ν ⟨array, (vertex?.map asIndex).toList ++ [reg.toNat, c]⟩ [a]) ?_
      (R := fun _ t ν => ∃ array, t.inputArray? = some array ∧
        μ.Wrote ν ⟨array, (vertex?.map asIndex).toList ++ [reg.toNat, c]⟩ [a]) ?_)
      fun _ t₂ ν₂ _ wrote => .pure fun _ => wrote
    · refine Looks.andThen (numbers_looks vertex?) fun vertexId? t₂ ν₂ since₂ unmoved₂ vertex => ?_
      refine Looks.andThen (inputPointer_looks vertex (since₂.knows (since₁.knows known)))
        fun p t₃ ν₃ since₃ unmoved₃ led => ?_
      obtain ⟨type, array, here_, leads⟩ := led
      have word : t₃.Carries ν₃.processor u .f32 [0] fun _ => a :=
        ⟨word.type, (since₂.trans since₃).knows word.knows⟩
      refine .bind (storeMasked_single leads (by rw [type]; decide) only (by rwa [type])
        (by rw [word.type]; exact Nat.one_pos) (word.holds (by decide)))
        fun _ t₄ ν₄ since₄ wrote => .pure fun _ =>
          ⟨rfl, array, since₄.maintains.within_.inputArray array here_, ?_⟩
      have place : Address.component ⟨array, ((vertex?.map UInt32.ofNat).toList ++ [reg]).map
          UInt32.toNat⟩ p.type.count c =
            ⟨array, (vertex?.map asIndex).toList ++ [reg.toNat, c]⟩ := by
        rw [type, Address.component_several (by decide)]
        cases vertex? <;> rfl
      rw [place] at wrote
      exact wrote.after (((unmoved.trans unmoved₁).trans unmoved₂).trans unmoved₃)
    · rintro _ t₂ ν₂ _ ⟨rfl, wrote⟩
      exact .pure fun _ => wrote
  split
  · exact .pure_bind single
  · refine Performs.idle_bind inputVertexCount_run (.pure_bind ?_)
    rw [verticesOf, if_pos]
    · exact single
    · rw [(since.trans since₁).maintains.vertexCount]
      exact one rfl

theorem eq_zero_of_none_mem {count : Nat} (mem : none ∈ verticesOf count) : count = 0 := by
  unfold verticesOf at mem
  split at mem
  · next zero => exact zero
  · obtain ⟨_, _, h⟩ := List.mem_map.1 mem
    cases h

theorem distance_cases {value : SystemValue} {counts : ClipCullCounts} {builtin : BuiltIn}
    {count : Nat} (is : distance value counts = (builtin, count)) :
    builtin = .clipDistance ∨ builtin = .cullDistance := by
  rw [show builtin = _ from (congrArg Prod.fst is).symm]
  unfold distance
  split
  · exact .inl rfl
  · exact .inr rfl

/-- Distances are arrays of floats. -/
theorem IsBuiltin.distances {builtin : BuiltIn} {storage : StorageClass} {b : BuiltinVariable}
    (made : IsBuiltin env s builtin storage b)
    (is : builtin = .clipDistance ∨ builtin = .cullDistance) :
    b.type = .single .f32 ∧ 0 < b.length := by
  have type := congrArg Prod.fst made.shape
  have length := congrArg Prod.snd made.shape
  dsimp only at type length
  rw [type, length]
  rcases is with rfl | rfl <;>
    exact ⟨rfl, Nat.lt_of_lt_of_le Nat.one_pos (Nat.le_max_right _ _)⟩

/-- What copying the distances of inputs goes through: the tagged components of declared registers,
each for every vertex. -/
def distanceItems (env : Environment) (s : State) (value : SystemValue) :
    List ((UInt32 × Nat × Nat) × Option Nat) :=
  if routesToBuiltin env.stage .input value then
    (env.inputs.numbered value).flatMap fun i =>
      if s.inputs.contains i.1 then (verticesOf (s.vertexCount env)).flatMap fun v? => [(i, v?)]
      else []
  else []

theorem copyInputDistances_conveys {value : SystemValue} {builtin : BuiltIn}
    (counts : distance value env.analysis.inputs = (builtin, env.inputs.componentsOf value)) :
    Conveys w env (distanceInputs builtin).Copied (distanceItems env s value)
      (copyInputDistances value) s μ := by
  have number : builtin ≠ .frontFacing := by
    rcases distance_cases counts with rfl | rfl <;> decide
  have low {i : UInt32 × Nat × Nat} (mem : i ∈ env.inputs.numbered value) : i.2.1 < 4 :=
    Signature.lt_of_mem_numbered mem
  refine Conveys.read_bind ?_
  rw [counts]
  dsimp only
  by_cases skipped : env.inputs.componentsOf value = 0 ∨
      ¬routesToBuiltin env.stage .input value = true
  · have none_ : distanceItems env s value = [] := by
      refine ite_eq_right_iff.2 fun routes => ?_
      have empty := skipped.resolve_right (not_not.2 routes)
      rw [← Signature.length_tagged, List.length_eq_zero_iff] at empty
      rw [Signature.numbered, empty]
      rfl
    rw [if_pos skipped, none_]
    exact .pure trivial
  rw [if_neg skipped, numbered_layout, distanceItems,
    if_pos (not_not.1 fun h => skipped (.inr h))]
  refine Conveys.last (.forIn fun item mem c t ν since same => ?_) trivial
  obtain ⟨reg, component, i⟩ := item
  refine Conveys.state_bind fun _ => ?_
  rw [same.inputs]
  dsimp only
  split
  · refine .after (constantU32_looks i) fun element t₁ ν₁ since₁ _ element_ => ?_
    refine .idle_bind inputVertexCount_run ?_
    rw [since₁.maintains.vertexCount, since.maintains.vertexCount]
    refine .last (.forIn fun vertex? here_ c t₂ ν₂ since₂ _ => ?_) ⟨_, rfl⟩
    refine .after (numbers_looks vertex?) fun vertexId? t₃ ν₃ since₃ unmoved₃ vertex => ?_
    refine .after (loadBuiltin_looks number vertex
      (.some ((since₂.trans since₃).knows element_))) fun v t₄ ν₄ since₄ unmoved₄ h => ?_
    obtain ⟨b, made, carries⟩ := h
    rw [(made.distances (distance_cases counts)).1] at carries
    have word : t₄.Carries ν₄.processor v .f32 [0] fun _ =>
        ν₄.memory ⟨b.id, b.path (vertex?.map asIndex) (some (asIndex i))⟩ := by
      refine carries.congr fun c _ => ?_
      rw [unmoved₄.memory, Address.component_single (by decide)]
      cases vertex? <;> rfl
    have single : vertex? = none → t₄.vertexCount env = 0 := by
      rintro rfl
      have all := ((((since.trans since₁).trans since₂).trans since₃).trans since₄).maintains
      rw [all.vertexCount]
      exact eq_zero_of_none_mem here_
    refine .last (.of_performs ((writeInput_writes (low mem) word (by decide) single).mono
      fun _ t₅ ν₅ since₅ h => ?_)) ⟨_, rfl⟩
    obtain ⟨array, there, wrote⟩ := h
    refine ⟨_, _, fun u maintains => ⟨?_, ?_⟩, wrote⟩
    · have found := (since₅.maintains.trans maintains).within_.builtins _ _ made.found
      exact congrArg (Option.map _) found
    · exact congrArg (Option.map _) (maintains.within_.inputArray array there)
  · exact .pure ⟨_, rfl⟩

/-- From components of the output registers to the elements of an output built-in. -/
def distanceOutputs (builtin : BuiltIn) : Route (UInt32 × Nat × Nat) where
  size := 1
  source u i := u.outputArray?.map fun array => ⟨array, [i.1.toNat, i.2.1]⟩
  target u i := (u.builtins.lookup (builtin, .output)).map fun b => ⟨b.id, [asIndex i.2.2]⟩
  apart u parted i p j q source target := by
    obtain ⟨array, is, rfl⟩ := Option.map_eq_some_iff.1 source
    obtain ⟨b, found, rfl⟩ := Option.map_eq_some_iff.1 target
    have ending : u.holder? (.port (.builtin builtin .output)) = some b.id :=
      congrArg (Option.map _) found
    exact parted.apart (show u.holder? .outputs = some array from is) ending
      StorageClass.noConfusion

/-- The numbered components of the first registers, those of the next, and the others. -/
theorem numbered_append {s : Signature} {value : SystemValue} {reg : UInt32} {mask : WriteMask}
    {before after : List (UInt32 × WriteMask)}
    (all : s.layoutOf value = before ++ (reg, mask) :: after) :
    let first := (before.map (·.2.count)).sum
    ((s.numbered value).drop first).take mask.count =
      (mask.components.zipIdx first).map fun p => (reg, p.1, p.2) := by
  intro first
  have size : (before.flatMap fun p => p.2.components.map fun c => (p.1, c)).length = first := by
    simp only [List.length_flatMap, List.length_map]
    rfl
  rw [Signature.numbered, Signature.tagged, all, List.flatMap_append, List.flatMap_cons,
    List.zipIdx_append, List.map_append, List.zipIdx_append, List.map_append]
  rw [List.drop_left' (by rw [List.length_map, List.length_zipIdx, size]),
    List.take_left' (by rw [List.length_map, List.length_zipIdx, List.length_map]; rfl)]
  rw [size, Nat.zero_add, List.zipIdx_map, List.map_map]
  rfl

/-- What copying the distances of outputs goes through. -/
def outputItems (env : Environment) (value : SystemValue) : List (UInt32 × Nat × Nat) :=
  if routesToBuiltin env.stage .output value then env.outputs.numbered value else []

/-- One register's components. -/
theorem copyOutputRegister_conveys {builtin : BuiltIn} {reg : UInt32}
    {items : List (UInt32 × Nat × Nat)}
    {first : Nat}
    (distance : builtin = .clipDistance ∨ builtin = .cullDistance)
    (own : ∀ i ∈ items, i.1 = reg ∧ i.2.1 < 4) :
    Conveys w env (distanceOutputs builtin).Copied items (do
      let regId ← constant .u32 reg
      let v ← load (← outputPointer regId)
      for (_, component, i) in items do
        let part ← extract v component
        let element ← constantU32 i
        let p ← builtinPointer builtin .output none (some element)
        storeMasked p part .x
      pure (ForInStep.yield first)) s μ (· = ForInStep.yield first) := by
  refine .after (constant_looks reg) fun regId t ν since _ known => ?_
  refine .after (outputPointer_looks known) fun p t₁ ν₁ since₁ _ led => ?_
  obtain ⟨type, array, there, leads⟩ := led
  refine .after (loadFloats_looks type leads) fun v t₂ ν₂ since₂ unmoved₂ carries => ?_
  rw [← unmoved₂.memory] at carries
  refine .last (.forIn_start fun item mem c t₃ ν₃ since₃ => ?_) rfl
  obtain ⟨reg', component, i⟩ := item
  obtain ⟨rfl, low⟩ := own _ mem
  refine Looks.andThen (.of_reads (extract_steady v component) (extract_reads
    ⟨carries.type, since₃.knows carries.knows⟩ (by rwa [List.length_range])
      (Nat.lt_trans low (by decide)))) fun part t₄ ν₄ since₄ unmoved₄ part_ => ?_
  refine Looks.andThen (constantU32_looks i) fun element t₅ ν₅ since₅ unmoved₅ element_ => ?_
  refine Looks.andThen (builtinPointer_looks .none (.some element_))
    fun p t₆ ν₆ since₆ unmoved₆ h => ?_
  obtain ⟨b, made, type, leads⟩ := h
  obtain ⟨float, some_⟩ := made.distances distance
  have single : p.type = .single .f32 := type.trans float
  have path : b.path none (some (asIndex i)) = [asIndex i] := by
    rw [BuiltinVariable.path, made.vertices rfl, if_pos some_]
    rfl
  have part_ : t₆.Carries ν₆.processor part .f32 [component] fun c =>
      ν₂.memory (Address.part ⟨array, [reg'.toNat]⟩ c) := by
    refine ⟨part_.type, ?_⟩
    have known := (since₅.trans since₆).knows part_.knows
    rwa [List.getElem_range] at known
  refine .bind (storeMasked_single leads (by rw [single]; decide) (c := 0) rfl
    (by rw [single]; decide) (by rw [part_.type]; exact Nat.one_pos) (part_.holds (by decide)))
    fun _ t₇ ν₇ since₇ wrote => .pure fun _ => ⟨⟨_, rfl⟩, ⟨array, [reg'.toNat, component]⟩,
      ⟨b.id, [asIndex i]⟩, fun u maintains => ⟨?_, ?_⟩, ?_⟩
  · have later := ((((since₂.trans since₃).trans since₄).trans since₅).trans since₆).trans since₇
    have here_ := (later.maintains.trans maintains).within_.outputArray array there
    exact congrArg (Option.map _) here_
  · have found := (since₇.maintains.trans maintains).within_.builtins _ _ made.found
    exact congrArg (Option.map _) found
  · rw [single, Option.map_none, Option.map_some, Address.component_single (by decide)] at wrote
    exact path ▸ wrote.after ((unmoved₄.trans unmoved₅).trans unmoved₆)

theorem copyOutputDistances_conveys {value : SystemValue} {builtin : BuiltIn}
    (counts : distance value env.analysis.outputs = (builtin, env.outputs.componentsOf value)) :
    Conveys w env (distanceOutputs builtin).Copied (outputItems env value)
      (copyOutputDistances value) s μ := by
  refine Conveys.read_bind ?_
  rw [counts]
  dsimp only
  by_cases skipped : env.outputs.componentsOf value = 0 ∨
      ¬routesToBuiltin env.stage .output value = true
  · have none_ : outputItems env value = [] := by
      refine ite_eq_right_iff.2 fun routes => ?_
      have empty := skipped.resolve_right (not_not.2 routes)
      rw [← Signature.length_tagged, List.length_eq_zero_iff] at empty
      rw [Signature.numbered, empty]
      rfl
    rw [if_pos skipped, none_]
    exact .pure trivial
  rw [if_neg skipped, numbered_layout, outputItems, if_pos (not_not.1 fun h => skipped (.inr h))]
  have total : (env.outputs.numbered value).length =
      ((env.outputs.layoutOf value).map (·.2.count)).sum := by
    rw [Signature.numbered, List.length_map, List.length_zipIdx, Signature.tagged,
      List.length_flatMap]
    simp only [List.length_map]
    rfl
  refine Performs.bind (Performs.forIn (I := fun before first t ν =>
    first = (before.map (·.2.count)).sum ∧ ∀ u, t.Maintains u → u.Parted →
      (distanceOutputs builtin).Copied u ((env.outputs.numbered value).take first) μ ν) ?_
      ⟨rfl, fun _ _ _ => .of_unmoved (.refl μ)⟩) fun first t ν _ done => .pure fun _ =>
      ⟨trivial, ?_⟩
  · intro before e after first all t ν since done
    obtain ⟨reg, mask⟩ := e
    obtain ⟨rfl, done⟩ := done
    have own (i : UInt32 × Nat × Nat) (here_ : i ∈ ((env.outputs.numbered value).drop
        (before.map (·.2.count)).sum).take mask.count) : i.1 = reg ∧ i.2.1 < 4 := by
      have low := Signature.lt_of_mem_numbered (List.mem_of_mem_drop (List.mem_of_mem_take here_))
      rw [numbered_append all] at here_
      obtain ⟨p, _, rfl⟩ := List.mem_map.1 here_
      exact ⟨rfl, low⟩
    refine Performs.mono (copyOutputRegister_conveys (distance_cases counts) own)
      fun r u κ since' h => ⟨_, h.1, ?_, fun v maintains parted => ?_⟩
    · rw [List.map_append, List.sum_append]
      rfl
    · rw [List.take_add]
      exact (done v (since'.maintains.trans maintains) parted).trans parted (h.2 v maintains parted)
  · obtain ⟨rfl, done⟩ := done
    rwa [← total, List.take_length] at done

section ControlPoints

theorem decorateInterpolation_stays (id : Id) (component : ComponentType) (mode : Interpolation) :
    Stays w env (decorateInterpolation id component mode) s μ fun _ _ _ => True := by
  refine .ite (fun _ => decorate_stays _ _ _) fun _ => ?_
  refine .optional (decorate_stays _ _ _) fun t ν _ => ?_
  refine .optional (decorate_stays _ _ _) fun t ν _ => ?_
  exact .ite (fun _ => .bind (decorate_stays _ _ _) fun _ _ _ _ _ => requireCapability_stays _)
    fun _ => .pure fun _ => trivial

theorem newLocation_stays (side : Side) (reg : UInt32) (mode : Interpolation) :
    Stays w env (newLocation side reg mode) s μ fun l t _ => t.HasVector l := by
  refine .read_bind (.bind (Q := fun _ _ _ => True) (.read_bind (.pure fun _ => trivial))
    fun signature t ν _ _ => ?_)
  have made (vertices : Nat) (scalar : ScalarType) (text : String) (component : ComponentType)
      (declared : Interpolation) (number : scalar ≠ .bool) (t : State) (ν : Invocation) :
      Stays w env (do
        let type := VectorType.four scalar
        let element ← vectorType type
        let pointee ← arrayOf element vertices
        let id ← newVariable pointee side.storage none
        if side.isPatch then
          decorate id .patch []
          decorate id .location [.word (patchLocationBase + reg)]
        else
          decorate id .location [.word reg]
        if env.stage = .pixel ∧ side = .input then
          decorateInterpolation id component declared
        name id text
        return ({ id, type, vertices } : LocationVariable)) t ν fun l t _ => t.HasVector l := by
    refine .bind (vectorType_stays _) fun element t₁ ν₁ _ _ => ?_
    refine .bind (arrayOf_stays _ _) fun pointee t₂ ν₂ _ _ => ?_
    refine .bind (newVariable_stays _ _) fun id t₃ ν₃ _ is => ?_
    have rest (t₄ : State) (ν₄ : Invocation) (since : State.Since env t₃ ν₃ t₄ ν₄) : Stays w env (do
        if env.stage = .pixel ∧ side = .input then
          decorateInterpolation id component declared
        name id text
        return ({ id, type := VectorType.four scalar, vertices } : LocationVariable)) t₄ ν₄
          fun l t _ => t.HasVector l :=
      .optional (decorateInterpolation_stays _ _ _) fun t₅ ν₅ since₅ =>
        .bind (name_stays _ _) fun _ t₆ ν₆ since₆ _ => .pure fun _ =>
          ⟨is.mono ((since.trans since₅).trans since₆).grows, rfl, number⟩
    refine .ite (fun _ => ?_) fun _ => ?_
    · exact .bind (decorate_stays _ _ _) fun _ t₄ ν₄ since₄ _ =>
        .bind (decorate_stays _ _ _) fun _ t₅ ν₅ since₅ _ => rest t₅ ν₅ (since₄.trans since₅)
    · exact .bind (decorate_stays _ _ _) fun _ t₄ ν₄ since₄ _ => rest t₄ ν₄ since₄
  have floats (c : ComponentType) : ScalarType.ofComponent c ≠ .bool := by cases c <;> decide
  dsimp only
  split
  · exact .bind inputVertexCount_stays fun _ t ν _ _ =>
      made _ _ _ _ _ (by split <;> first | exact floats _ | decide) t ν
  · exact .bind inputVertexCount_stays fun _ t ν _ _ =>
      made _ _ _ _ _ (by split <;> first | exact floats _ | decide) t ν
  · exact .bind inputVertexCount_stays fun _ t ν _ _ =>
      made _ _ _ _ _ (by split <;> first | exact floats _ | decide) t ν
  · exact Performs.state_bind fun _ =>
      Performs.pure_bind (made _ _ _ _ _ (by split <;> first | exact floats _ | decide) t ν)
  · exact Performs.pure_bind (made _ _ _ _ _ (by split <;> first | exact floats _ | decide) t ν)

theorem setRegister_performs {side : Side} {reg : UInt32} {r : InterfaceRegister}
    (missing : s.inventory.location? side reg = none) (drawn : s.Draws r) :
    (setRegister side reg r).Performs w env s μ fun _ t ν =>
      ν = μ ∧ t.inventory.location? side reg = r.location? := by
  -- The tables of the four sides change alike.
  have changed {t : State} (same : t.inventory = { s.inventory with registers := t.registers })
      (new : t.registers side = (s.registers side).insert reg r)
      (others : ∀ other, other ≠ side → t.registers other = s.registers other) :
      s.inventory.Within t.inventory ∧ t.inventory.location? side reg = r.location? ∧
        (s.Settled env → t.inventory.Furnished env s.builder.module) := by
    have here_ : t.inventory.location? side reg = r.location? := by
      change ((t.registers side).find? reg).bind _ = _
      rw [new, Table.find?_insert, if_pos rfl]
      rfl
    refine ⟨?_, here_, fun settled => ?_⟩
    · rw [same]
      refine { Inventory.Within.refl s.inventory with locations := fun side' reg' l found => ?_ }
      change ((s.registers side').find? reg').bind _ = some l at found
      change ((t.registers side').find? reg').bind _ = some l
      by_cases own : side' = side
      · subst own
        rw [new, Table.find?_insert]
        split
        · next key =>
          subst key
          cases missing.symm.trans found
        · exact found
      · rwa [others side' own]
    · rw [same]
      refine { settled.furnished with registers := fun side' => ?_ }
      by_cases own : side' = side
      · subst own
        change (t.registers side').All _
        rw [new]
        exact (settled.furnished.registers side').insert drawn
      · change (t.registers side').All _
        rw [others side' own]
        exact settled.furnished.registers side'
  have performs (f : State → State) (same : ∀ s : State, s.SameOutline (f s))
      (builder : (f s).builder = s.builder)
      (inventory : (f s).inventory = { s.inventory with registers := (f s).registers })
      (new : (f s).registers side = (s.registers side).insert reg r)
      (others : ∀ other, other ≠ side → (f s).registers other = s.registers other) :
      (InterfaceStep.note f same).Performs w env s μ fun _ t ν =>
        ν = μ ∧ t.inventory.location? side reg = r.location? := by
    obtain ⟨within_, here_, furnished⟩ := changed inventory new others
    refine .mono (.note builder within_ furnished) fun _ t ν _ h => ?_
    obtain ⟨rfl, rfl⟩ := h
    exact ⟨rfl, here_⟩
  cases side with
  | input | output | patchInput | patchOutput =>
    refine performs _ (fun _ => by constructor <;> rfl) rfl rfl rfl fun other apart => ?_
    cases other with
    | input | output | patchInput | patchOutput => first | rfl | exact absurd rfl apart

theorem location?_register (side : Side) (reg : UInt32) :
    s.inventory.location? side reg = (s.register side reg).location? := by
  rw [State.register]
  change ((s.registers side).find? reg).bind _ = _
  cases (s.registers side).find? reg <;> rfl

theorem draws_register (settled : s.Settled env) (side : Side) (reg : UInt32) :
    s.Draws (s.register side reg) := by
  rw [State.register]
  cases found : (s.registers side).find? reg with
  | none =>
    intro l is
    cases is
  | some r => exact (settled.furnished.registers side).find? found

/-- The location variable of a register, which is there from then on. -/
theorem locationFor_performs (side : Side) (reg : UInt32) (mask : WriteMask) :
    (locationFor side reg mask).Performs w env s μ fun l t ν =>
      μ.Unmoved ν ∧ t.inventory.location? side reg = some l ∧ t.HasVector l := by
  refine .idle_bind register_run ?_
  split
  · next l is =>
    exact .pure fun settled => ⟨.refl μ, (location?_register side reg).trans is,
      draws_register settled side reg l is⟩
  · next missing =>
    refine .bind (newLocation_stays side reg .undefined) fun l t ν since h => ?_
    obtain ⟨unmoved, same, vector⟩ := h
    refine .idle_bind register_run ?_
    have still : t.inventory.location? side reg = none := by
      rw [same, location?_register, missing]
    refine .bind (setRegister_performs still fun l' is => ?_) fun _ u κ since' h =>
      .pure fun _ => ?_
    · cases is
      exact vector
    · obtain ⟨rfl, here_⟩ := h
      exact ⟨unmoved, here_, vector.1.mono since'.grows, vector.2⟩

/-- From the inputs of a control point to its outputs, register by register. -/
def controlPoints (invocation : UInt32) : Route UInt32 where
  size := 4
  source u reg := (u.inventory.location? .input reg).map fun l => ⟨l.id, [invocation.toNat]⟩
  target u reg := (u.inventory.location? .output reg).map fun l => ⟨l.id, [invocation.toNat]⟩
  apart u parted i p j q source target := by
    obtain ⟨l, from_, rfl⟩ := Option.map_eq_some_iff.1 source
    obtain ⟨l', into, rfl⟩ := Option.map_eq_some_iff.1 target
    have holds {side : Side} {reg : UInt32} {l : LocationVariable}
        (is : u.inventory.location? side reg = some l) :
        u.holder? (.port (.register side reg)) = some l.id := by
      rw [State.holder?, State.port?, State.located_inventory, is]
      rfl
    exact parted.apart (holds from_) (holds into) StorageClass.noConfusion

/-- The registers that are passed on. -/
def passedRegisters (env : Environment) : List UInt32 :=
  ((signatureRegisters env.inputs).map (·.1)).filter (·.toNat < maxInterfaceRegisters)

theorem passControlPoints_performs : passControlPoints.Performs w env s μ fun _ t ν =>
    ∃ b, IsBuiltin env t .invocationId .input b ∧ ∀ u, t.Maintains u → u.Parted →
      (controlPoints (μ.memory ⟨b.id, []⟩)).Copied u (passedRegisters env) μ ν := by
  refine .idle_bind (a := env) rfl ?_
  refine .bind invocationId_looks fun invocation t ν since h => ?_
  obtain ⟨unmoved, b, made, known⟩ := h
  let passed (l : List (UInt32 × WriteMask)) : List UInt32 :=
    (l.map (·.1)).filter (·.toNat < maxInterfaceRegisters)
  refine .bind (.forIn (I := fun before _ t ν => ∀ u, t.Maintains u → u.Parted →
    (controlPoints (μ.memory ⟨b.id, []⟩)).Copied u (passed before) μ ν) ?_
      fun _ _ _ => .of_unmoved unmoved) fun _ t' ν' since' h => .pure fun _ =>
        ⟨b, made.later since'.maintains since'.grows, h⟩
  intro before e after c _ t₁ ν₁ since₁ done
  obtain ⟨reg, mask⟩ := e
  have more : passed (before ++ [(reg, mask)]) =
      passed before ++ if reg.toNat < maxInterfaceRegisters then [reg] else [] := by
    simp only [passed, List.map_append, List.map_singleton, List.filter_append,
      List.filter_singleton, Bool.cond_decide]
  dsimp only
  split
  · next small =>
    refine .bind (locationFor_performs .input reg mask) fun input t₂ ν₂ since₂ h => ?_
    obtain ⟨unmoved₂, from_, variable_, four, number⟩ := h
    refine .bind (locationFor_performs .output reg mask) fun output t₃ ν₃ since₃ h => ?_
    obtain ⟨unmoved₃, into, variable', four', number'⟩ := h
    have known := ((since₁.trans since₂).trans since₃).knows known
    refine .bind (chain_looks (.of_variable since₃.settled.sound (variable_.mono since₃.grows))
      (.cons known .nil)) fun p t₄ ν₄ since₄ h => ?_
    obtain ⟨unmoved₄, type, leads⟩ := h
    refine .bind (load_looks leads (by rwa [type]) (by rw [type, four]; decide)
      (by rw [type, four]; decide)) fun value t₅ ν₅ since₅ h => ?_
    obtain ⟨unmoved₅, carries⟩ := h
    refine .bind (chain_looks (.of_variable since₅.settled.sound
      ((variable'.mono since₄.grows).mono since₅.grows))
      (.cons (since₅.knows (since₄.knows known)) .nil)) fun q t₆ ν₆ since₆ h => ?_
    obtain ⟨unmoved₆, type', leads'⟩ := h
    rw [type, four, ((unmoved₂.trans unmoved₃).trans unmoved₄).memory] at carries
    have number_ : input.type.scalar ≠ .bool := number
    have holds := (State.Carries.mk carries.type (since₆.knows carries.knows)).holds number_
    refine .bind (storeMasked_whole leads' (by rwa [type']) (by rw [type', four']; decide)
      (by rw [type', four']) (by rw [type', four']; rfl) (by rw [carries.type, type', four']; rfl)
      holds) fun _ t₇ ν₇ since₇ wrote => .pure fun _ => ⟨_, rfl, fun u maintains parted => ?_⟩
    have later := (((since₄.trans since₅).trans since₆).trans since₇).maintains.trans maintains
    rw [more, if_pos small]
    refine (done u ((since₂.trans since₃).maintains.trans later) parted).trans parted ?_
    have still := (((unmoved₂.trans unmoved₃).trans unmoved₄).trans unmoved₅).trans unmoved₆
    refine .of_wrote (p := ⟨input.id, [_]⟩) (q := ⟨output.id, [_]⟩) ?_ ?_ (wrote.after still)
    · have here_ := (since₃.maintains.trans later).within_.locations .input reg input from_
      exact congrArg (Option.map _) here_
    · exact congrArg (Option.map _) (later.within_.locations .output reg output into)
  · next large =>
    refine .pure fun _ => ⟨_, rfl, ?_⟩
    rw [more, if_neg large, List.append_nil]
    exact done

end ControlPoints

end Lower

end ShaderLowering
