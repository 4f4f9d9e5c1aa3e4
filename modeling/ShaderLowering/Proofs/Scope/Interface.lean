import ShaderLowering.Proofs.Scope.Copies
import ShaderLowering.Proofs.Typing.Interface

/-!
Interface registers. The variable that carries a register is made and decorated, and then the
register is set to hold it; taken together, that is one act. Whatever else is said of a register
leaves its variable as it is.
-/

namespace ShaderLowering

open Spirv (Id Instr Arg Op Builder StorageClass Decoration)

variable {H : Limits} {env : Environment} {b : Builder} {s t u : State} {side : Side}
  {reg : UInt32} {r : InterfaceRegister}

namespace State

/-- A state in which a register has been set. -/
def withRegister (s : State) (side : Side) (reg : UInt32) (r : InterfaceRegister) : State :=
  match side with
  | .input => { s with inputs := s.inputs.insert reg r }
  | .output => { s with outputs := s.outputs.insert reg r }
  | .patchInput => { s with patchInputs := s.patchInputs.insert reg r }
  | .patchOutput => { s with patchOutputs := s.patchOutputs.insert reg r }

theorem builder_withRegister : (s.withRegister side reg r).builder = s.builder := by
  cases side <;> rfl

theorem remembers_withRegister : s.Remembers (s.withRegister side reg r) :=
  .of_eq (by cases side <;> rfl)

theorem located_eq : s.located side reg = (s.register side reg).location?.map (·.id) := by
  have default_ (found : Option InterfaceRegister) :
      (found.bind (·.location?)).map (·.id) = (found.getD .empty).location?.map (·.id) := by
    cases found <;> rfl
  cases side <;> exact default_ _

theorem accounts_withRegister : (s.withRegister side reg r).accounts =
    { s.accounts with
      located := Function.updateAt s.located side reg (r.location?.map (·.id)) } := by
  have entered (t : Table InterfaceRegister) (reg' : UInt32) :
      (((t.insert reg r).find? reg').bind (·.location?)).map (·.id) =
        if reg' = reg then r.location?.map (·.id)
        else ((t.find? reg').bind (·.location?)).map (·.id) := by
    rw [Table.find?_insert]
    split <;> rfl
  have located : (s.withRegister side reg r).located =
      Function.updateAt s.located side reg (r.location?.map (·.id)) := by
    funext side' reg'
    unfold Function.updateAt
    cases side <;> cases side' <;>
      simp only [State.located, withRegister, entered, reduceCtorEq, false_and, true_and, if_false]
  cases side <;> exact congrArg (fun located => { s.accounts with located }) located

theorem located_withRegister :
    (s.withRegister side reg r).located side reg = r.location?.map (·.id) := by
  have located : (s.withRegister side reg r).located = _ :=
    congrArg Accounts.located accounts_withRegister
  exact (congrFun (congrFun located side) reg).trans (if_pos ⟨rfl, rfl⟩)

theorem Kept.withRegister (h : s.Kept H b) (carried : r.Carried H b) :
    (s.withRegister side reg r).Kept H b := by
  cases side with
  | input => exact { h with inputs := h.inputs.insert carried }
  | output => exact { h with outputs := h.outputs.insert carried }
  | patchInput => exact { h with patchInputs := h.patchInputs.insert carried }
  | patchOutput => exact { h with patchOutputs := h.patchOutputs.insert carried }

theorem Kept.carried (h : s.Kept H b) (side : Side) (reg : UInt32) :
    (s.register side reg).Carried H b := by
  have entry {t : Table InterfaceRegister}
      (all : t.All fun _ r => ∀ l, r.location? = some l → b.Standing H l.id) :
      ((t.find? reg).getD .empty).Carried H b := by
    cases found : t.find? reg with
    | none => exact nofun
    | some r => exact all.find? found
  cases side with
  | input => exact entry h.inputs
  | output => exact entry h.outputs
  | patchInput => exact entry h.patchInputs
  | patchOutput => exact entry h.patchOutputs

end State

theorem Function.updateAt_self {κ ι α : Type} [DecidableEq κ] [DecidableEq ι]
    (f : κ → ι → α) (k : κ)
    (i : ι) : Function.updateAt f k i (f k i) = f := by
  funext k' i'
  unfold updateAt
  split
  · next same => rw [same.1, same.2]
  · rfl

namespace Lower

theorem setRegister_run :
    (setRegister side reg r).run env s = (.ok (), s.withRegister side reg r) := by
  cases side <;> rfl

/-- What is said of a register, its variable apart, is no more than a note. -/
theorem withRegister_act (same : r.location? = (s.register side reg).location?) :
    Act H env s (s.withRegister side reg r) := by
  refine .note ?_ ?_ (fun kept => ?_) ?_ State.remembers_withRegister
  · rw [State.builder_withRegister]
    exact .refl _
  · rw [State.builder_withRegister]
  · exact kept.withRegister fun l is => kept.carried side reg l (same ▸ is)
  · rw [State.accounts_withRegister, same, ← State.located_eq, Function.updateAt_self]
    rfl

theorem decorateInterpolation_leaves (id : Id) (component : ComponentType) (mode : Interpolation) :
    Leaves Instr.IsPlainMark env (decorateInterpolation id component mode).run := by
  refine .ite (fun _ => decorate_plain id rfl []) fun _ => ?_
  have sample : Leaves Instr.IsPlainMark env (do
      if mode.isSample then
        decorate id .sample []
        requireCapability .sampleRateShading : Emission Unit).run :=
    .ite (fun _ => .bind (decorate_plain id rfl []) fun _ => requireCapability_leaves _)
      fun _ => .pure
  have centroid : Leaves Instr.IsPlainMark env (do
      if mode.isCentroid then decorate id .centroid []
      if mode.isSample then
        decorate id .sample []
        requireCapability .sampleRateShading : Emission Unit).run :=
    .ite (fun _ => .bind (decorate_plain id rfl []) fun _ => sample) fun _ => sample
  exact .ite (fun _ => .bind (decorate_plain id rfl []) fun _ => centroid) fun _ => centroid

/-- The marks of a location come first. -/
theorem decorateLocation_marks {α : Type} {id : Id} {k : Unit → Emission α} {a : α}
    (ran : (if side.isPatch then do
        decorate id .patch []
        let marked ← decorate id .location [.word (patchLocationBase + reg)]
        k marked
      else do
        let marked ← decorate id .location [.word reg]
        k marked : Emission α).run env s = (.ok a, u)) :
    ∃ t, Marks s t
      ((if side.isPatch then [.plain .decorate [.id id, .word Decoration.patch.code]] else []) ++
        [.plain .decorate
          [.id id, .word Decoration.location.code, .word (side.locationOf reg)]]) ∧
      t.accounts = s.accounts ∧ (k ()).run env t = (.ok a, u) := by
  unfold Side.locationOf
  split at ran
  · next patch =>
    rw [if_pos patch, if_pos patch]
    exact ⟨_, (Marks.annotate s rfl).trans (.annotate _ rfl), rfl, ran⟩
  · next patch =>
    rw [if_neg patch, if_neg patch]
    exact ⟨_, Marks.annotate s rfl, rfl, ran⟩

/-- The location variable of a register is made and decorated. -/
theorem newLocation_creates {mode : Interpolation} {l : LocationVariable} (ready : Ready H s)
    (ran : (newLocation side reg mode).run env s = (.ok l, u)) :
    ∃ t marks, Acts H env s t ∧ t.accounts = s.accounts ∧
      Creates H t u l.id side.storage
        ((if side.isPatch then [.plain .decorate [.id l.id, .word Decoration.patch.code]]
          else []) ++
          .plain .decorate
            [.id l.id, .word Decoration.location.code, .word (side.locationOf reg)] :: marks) ∧
      (∀ i ∈ marks, i.IsPlainMark) ∧
      u.accounts = { s.accounts with listed := (l.id, side.storage) :: s.globals } := by
  have made (vertices : Nat) (scalar : ScalarType) (text : String) (component : ComponentType)
      (declared : Interpolation) {v : State} (acts : Acts H env s v)
      (same : v.accounts = s.accounts)
      (ran : (do
        let type := VectorType.four scalar
        let element ← vectorType type
        let pointee ← arrayOf element vertices
        let id ← newVariable pointee side.storage none
        if side.isPatch then
          decorate id .patch []
          decorate id .location [.word (patchLocationBase + reg)]
        else
          decorate id .location [.word reg]
        if env.stage = .pixel ∧ side = .input then
          decorateInterpolation id component declared
        name id text
        return ({ id, type, vertices } : LocationVariable) : Emission LocationVariable).run env v =
          (.ok l, u)) : ∃ t marks, Acts H env s t ∧ t.accounts = s.accounts ∧
      Creates H t u l.id side.storage
        ((if side.isPatch then [.plain .decorate [.id l.id, .word Decoration.patch.code]]
          else []) ++
          .plain .decorate
            [.id l.id, .word Decoration.location.code, .word (side.locationOf reg)] :: marks) ∧
      (∀ i ∈ marks, i.IsPlainMark) ∧
      u.accounts = { s.accounts with listed := (l.id, side.storage) :: s.globals } := by
    obtain ⟨element, w, typed, ran⟩ := Emission.run_bind_eq_ok.1 ran
    obtain ⟨acts₁, global₁⟩ := vectorType_establishes _ _ _ _ (acts.ready ready) (.refl _) typed
    obtain ⟨pointee, x, arrayed, ran⟩ := Emission.run_bind_eq_ok.1 ran
    obtain ⟨acts₂, global₂⟩ := arrayOf_establishes global₁ _ _ _ _
      (acts₁.ready (acts.ready ready)) (.refl _) arrayed
    obtain ⟨id, y, created, ran⟩ := Emission.run_bind_eq_ok.1 ran
    obtain ⟨z, acts₃, creates, listed, unchanged⟩ := newVariable_creates
      (acts₂.ready (acts₁.ready (acts.ready ready))) global₂ (by nofun) created
    have before : z.accounts = s.accounts := by
      rw [unchanged, arrayOf_quiet _ _ _ _ _ arrayed, vectorType_quiet _ _ _ _ typed, same]
    have ends : Closes Instr.IsPlainMark env (name id text >>= fun _ =>
        (pure { id, type := .four scalar, vertices } : Emission LocationVariable)).run
        fun l t u => l.id = id ∧ u = t :=
      .bind (name_leaves _ _) fun _ => .of fun t l u ran => by
        cases ran
        exact ⟨rfl, rfl⟩
    have closes : Closes Instr.IsPlainMark env (do
        if env.stage = .pixel ∧ side = .input then
          decorateInterpolation id component declared
        name id text
        return ({ id, type := .four scalar, vertices } : LocationVariable) :
          Emission LocationVariable).run fun l t u => l.id = id ∧ u = t :=
      .optional (fun _ => decorateInterpolation_leaves _ _ _) ends
    obtain ⟨y', marked, kept, ran⟩ := decorateLocation_marks ran
    obtain ⟨v', marks, marked', kept', plain, is, rfl⟩ := closes _ _ _ ran
    subst is
    refine ⟨z, marks, ((acts.trans acts₁).trans acts₂).trans acts₃, before, ?_, plain, ?_⟩
    · have creates := (marked.trans marked').creates creates
      rwa [List.nil_append, List.append_assoc] at creates
    · rw [kept', kept, listed, before, show z.globals = s.globals
        from congrArg Accounts.listed before]
  obtain ⟨_, _, read_, ran⟩ := Emission.run_bind_eq_ok.1 ran
  cases read_
  obtain ⟨signature, s', signed, ran⟩ := Emission.run_bind_eq_ok.1 ran
  cases signed
  have counted {vertices : Nat} {v : State}
      (ran : inputVertexCount.run env s = (.ok vertices, v)) :
      Acts H env s v ∧ v.accounts = s.accounts :=
    ⟨(inputVertexCount_does _ _ _ ready (.refl _) ran).1, inputVertexCount_quiet _ _ _ ran⟩
  dsimp only at ran
  split at ran
  · obtain ⟨vertices, v, count, ran⟩ := Emission.run_bind_eq_ok.1 ran
    exact made vertices _ _ _ _ (counted count).1 (counted count).2 ran
  · obtain ⟨vertices, v, count, ran⟩ := Emission.run_bind_eq_ok.1 ran
    exact made vertices _ _ _ _ (counted count).1 (counted count).2 ran
  · obtain ⟨vertices, v, count, ran⟩ := Emission.run_bind_eq_ok.1 ran
    exact made vertices _ _ _ _ (counted count).1 (counted count).2 ran
  · obtain ⟨_, _, count, rest⟩ := Emission.run_bind_eq_ok.1 ran
    cases count
    obtain ⟨_, _, count, rest⟩ := Emission.run_bind_eq_ok.1 rest
    cases count
    exact made _ _ _ _ _ .refl rfl rest
  · obtain ⟨_, _, count, rest⟩ := Emission.run_bind_eq_ok.1 ran
    cases count
    exact made _ _ _ _ _ .refl rfl rest

/-- A register without a variable gets one. -/
theorem withLocation_acts {mode : Interpolation} {l : LocationVariable} (ready : Ready H s)
    (missing : s.located side reg = none) (small : reg.toNat < maxInterfaceRegisters)
    (ran : (newLocation side reg mode).run env s = (.ok l, u)) (is : r.location? = some l) :
    Acts H env s (u.withRegister side reg r) ∧ u.builder.Standing H l.id := by
  obtain ⟨t, marks, acts, same, creates, plain, listed⟩ := newLocation_creates ready ran
  have before : t.located = s.located := congrArg Accounts.located same
  have after : u.located = s.located := congrArg Accounts.located listed
  have entered := creates.note (u := u.withRegister side reg r) State.builder_withRegister
    (fun b kept stands => kept.withRegister fun l' is' => by
      cases is.symm.trans is'
      exact stands) State.remembers_withRegister
  refine ⟨acts.tail (.locate (before ▸ missing) small entered plain ?_),
    creates.standing (acts.ready ready)⟩
  rw [State.accounts_withRegister, listed, after, before, is, same,
    show t.globals = s.globals from congrArg Accounts.listed same]
  rfl

theorem declareRegister_acts {mask : WriteMask} {value? : Option SystemValue}
    {mode : Interpolation} (ready : Ready H s)
    (ran : (declareRegister side reg mask value? mode).run env s = (.ok (), t)) :
    Acts H env s t := by
  unfold declareRegister at ran
  split at ran
  · cases ran
  next small =>
  obtain ⟨values, s₁, routes, ran⟩ := InterfaceStep.run_bind_eq_ok.1 ran
  obtain ⟨values', routes'⟩ := @routedValues_succeeds env s side reg mask value?
  cases routes.symm.trans routes'
  obtain ⟨r, s₂, found, ran⟩ := InterfaceStep.run_bind_eq_ok.1 ran
  cases found.symm.trans register_run
  obtain ⟨_, u, set, ran⟩ := InterfaceStep.run_bind_eq_ok.1 ran
  rw [setRegister_run] at set
  cases set
  have noted : Act H env s (s.withRegister side reg ((s.register side reg).declare mask values)) :=
    withRegister_act rfl
  split at ran
  · next without =>
    obtain ⟨l, v, made, ran⟩ := InterfaceStep.run_bind_eq_ok.1 ran
    rw [setRegister_run] at ran
    cases ran
    have missing : (s.withRegister side reg ((s.register side reg).declare mask values)).located
        side reg = none := by
      rw [State.located_withRegister, Option.isNone_iff_eq_none.1 without.1]
      rfl
    exact .head noted (withLocation_acts (noted.ready ready) missing (Nat.lt_of_not_le small) made
      rfl).1
  · cases ran
    exact .single noted

end Lower

namespace Does

variable {α β : Type} {mid : α → Builder → Prop}

theorem bindInterface {e : InterfaceStep α} {f : α → InterfaceStep β}
    {post : β → Builder → Prop} (first : Does H env b e.run mid)
    (later : ∀ a c, b.Within c → mid a c → Does H env c (f a).run post) :
    Does H env b (e >>= f).run post :=
  .andThen (fun _ _ => rfl) first later

theorem readInterface {f : Environment → InterfaceStep β} {post : β → Builder → Prop}
    (h : Does H env b (f env).run post) : Does H env b (read >>= f : InterfaceStep β).run post :=
  fun s d t ready outgrown ran => h s d t ready outgrown ran

theorem pureInterface {a : α} {post : α → Builder → Prop} (h : ∀ c, b.Within c → post a c) :
    Does H env b (pure a : InterfaceStep α).run post := by
  intro s d t ready outgrown ran
  cases ran
  exact ⟨.refl, h _ outgrown⟩

theorem iteInterface {p : Prop} [Decidable p] {yes no : InterfaceStep α}
    {post : α → Builder → Prop} (hyes : p → Does H env b yes.run post)
    (hno : ¬p → Does H env b no.run post) : Does H env b (if p then yes else no).run post := by
  split
  · next h => exact hyes h
  · next h => exact hno h

/-- A loop of steps on the interface. -/
theorem forInInterface {f : α → PUnit → InterfaceStep (ForInStep PUnit)} {list : List α}
    (each : ∀ a ∈ list, ∀ c, b.Within c → Does H env c (f a ⟨⟩).run fun _ _ => True) :
    Does H env b (ForIn.forIn list ⟨⟩ f : InterfaceStep PUnit).run fun _ _ => True := by
  induction list generalizing b with
  | nil =>
    rw [List.forIn_nil]
    exact .pureInterface fun _ _ => trivial
  | cons a rest ih =>
    rw [List.forIn_cons]
    refine .bindInterface (each a List.mem_cons_self b (.refl b)) fun step c within _ => ?_
    cases step with
    | done => exact .pureInterface fun _ _ => trivial
    | yield =>
      exact ih fun a ha d within' => each a (List.mem_cons_of_mem _ ha) d (within.trans within')

end Does

namespace Lower

theorem locationFor_does {mask : WriteMask} (small : reg.toNat < maxInterfaceRegisters) :
    Does H env b (locationFor side reg mask).run fun l c => c.Standing H l.id := by
  intro s l t ready _ ran
  unfold locationFor at ran
  obtain ⟨r, s₁, found, ran⟩ := InterfaceStep.run_bind_eq_ok.1 ran
  cases found.symm.trans register_run
  split at ran
  · next location is =>
    cases ran
    exact ⟨.refl, ready.kept.carried side reg _ is⟩
  · next none_ =>
    obtain ⟨location, u, made, ran⟩ := InterfaceStep.run_bind_eq_ok.1 ran
    obtain ⟨r, s₂, found, ran⟩ := InterfaceStep.run_bind_eq_ok.1 ran
    cases found.symm.trans register_run
    obtain ⟨_, v, set, ran⟩ := InterfaceStep.run_bind_eq_ok.1 ran
    rw [setRegister_run] at set
    cases set
    cases ran
    rw [State.builder_withRegister]
    exact withLocation_acts ready (by rw [State.located_eq, none_]; rfl) small made rfl

theorem passControlPoints_does : Does H env b passControlPoints.run fun _ _ => True := by
  refine .readInterface (.bindInterface invocationId_supplies fun invocation c _ known => ?_)
  refine .bindInterface (.forInInterface fun entry _ d within => ?_) fun _ _ _ _ =>
    .pureInterface fun _ _ => trivial
  refine .iteInterface (fun small => ?_) fun _ => .pureInterface fun _ _ => trivial
  refine .bindInterface (locationFor_does small) fun input e within₁ input_ => ?_
  refine .bindInterface (locationFor_does small) fun output f within₂ output_ => ?_
  replace known := ((known.mono within).mono within₁).mono within₂
  refine .bindInterface (chain_supplies _ _ (input_.mono within₂).available (by simpa using known))
    fun p g within₃ p_ => ?_
  refine .bindInterface (load_routine p_).supplies fun value h within₄ value_ => ?_
  refine .bindInterface (chain_supplies _ _ ((output_.mono within₃).mono within₄).available
    (by simpa using (known.mono within₃).mono within₄)) fun q i within₅ q_ => ?_
  exact .bindInterface (storeMasked_supplies q_ (value_.mono within₅) _) fun _ _ _ _ =>
    .pureInterface fun _ _ => trivial

end Lower

end ShaderLowering
