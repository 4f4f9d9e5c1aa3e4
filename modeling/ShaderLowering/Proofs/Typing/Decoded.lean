import ShaderLowering.Compile
import ShaderLowering.Proofs.Typing.Shader

/-!
Shaders come from programs. Decoding reads every register in an index as a signed integer, and the
system values of a signature are those that have a code.
-/

namespace ShaderLowering

/-- What is added to the indices of an operand, at any depth, is read as signed integers. -/
def Operand.Signed (op : Operand) : Prop :=
  ∀ part ∈ op.parts, ∀ index ∈ part.indices, ∀ r, index.relative = some r → r.data = .sint32

theorem mem_indexParts {part : Operand} {indices : List (Index Operand)}
    (h : part ∈ indexParts indices) :
    ∃ index ∈ indices, ∃ r, index.relative = some r ∧ part ∈ r.parts := by
  induction indices with
  | nil =>
    rw [indexParts] at h
    cases h
  | cons index rest ih =>
    rw [indexParts] at h
    rcases List.mem_append.1 h with h | h
    · obtain ⟨offset, relative⟩ := index
      rw [indexPart] at h
      cases relative with
      | none =>
        rw [relativeParts] at h
        cases h
      | some r => exact ⟨_, List.mem_cons_self, r, rfl, by rwa [relativeParts] at h⟩
    · obtain ⟨index, mem, found⟩ := ih h
      exact ⟨index, List.mem_cons_of_mem _ mem, found⟩

/-- An operand is signed if what its own indices add is, and is read as signed integers. -/
theorem Operand.signed_of_indices {op : Operand}
    (h : ∀ index ∈ op.indices, ∀ r, index.relative = some r → r.data = .sint32 ∧ r.Signed) :
    op.Signed := by
  intro part hp
  rw [parts_eq] at hp
  rcases List.mem_cons.1 hp with rfl | hp
  · exact fun index mem r added => (h index mem r added).1
  · obtain ⟨index, mem, r, added, hp⟩ := mem_indexParts hp
    exact (h index mem r added).2 part hp

/-- All operands of an instruction are signed. -/
structure Instruction.Signed (inst : Instruction) : Prop where
  dst : ∀ op ∈ inst.dst, op.Signed
  src : ∀ op ∈ inst.src, op.Signed

theorem signed_concat {ops : List Operand} (h : ∀ op ∈ ops, op.Signed) {op : Operand}
    (known : op.Signed) : ∀ op' ∈ ops ++ [op], op'.Signed := by
  intro op' mem
  rcases List.mem_append.1 mem with mem | mem
  · exact h op' mem
  · rwa [List.mem_singleton.1 mem]

namespace Decode

/-- Whatever a reader reads has a property. -/
def Returns {α : Type} (p : α → Prop) (r : TokenReader α) : Prop :=
  ∀ stop toks a rest, r stop toks = .ok (a, rest) → p a

namespace Returns

variable {α β γ : Type} {p : α → Prop} {q : β → Prop} {r : TokenReader α}

protected theorem pure {a : α} (h : p a) : Returns p (pure a) := by
  intro stop toks b rest ran
  cases ran
  exact h

protected theorem bind {f : α → TokenReader β} (first : Returns p r)
    (later : ∀ a, p a → Returns q (f a)) : Returns q (r >>= f) := by
  intro stop toks b rest ran
  change (r stop toks >>= fun c => f c.1 stop c.2) = _ at ran
  cases read : r stop toks with
  | error e =>
    rw [read] at ran
    cases ran
  | ok c =>
    rw [read] at ran
    exact later c.1 (first stop toks c.1 c.2 read) stop c.2 b rest ran

/-- A reader of whose result nothing has to be known. -/
theorem after {f : α → TokenReader β} (later : ∀ a, Returns q (f a)) : Returns q (r >>= f) :=
  .bind (fun _ _ _ _ _ => trivial) fun a (_ : True) => later a

theorem fail {position : Nat} {fault : DecodeFault} : Returns p (fail position fault) := by
  intro stop toks a rest ran
  cases ran

theorem mapM {f : γ → TokenReader α} (each : ∀ c, Returns p (f c)) (list : List γ) :
    Returns (fun parts => ∀ a ∈ parts, p a) (list.mapM f) := by
  induction list with
  | nil =>
    rw [List.mapM_nil]
    exact .pure fun a ha => absurd ha List.not_mem_nil
  | cons c rest ih =>
    rw [List.mapM_cons]
    refine .bind (each c) fun a ha => .bind ih fun parts hparts => .pure fun b hb => ?_
    rcases List.mem_cons.1 hb with rfl | hb
    · exact ha
    · exact hparts b hb

theorem foldlM {f : α → γ → TokenReader α} (each : ∀ a c, p a → Returns p (f a c)) (list : List γ)
    {a : α} (h : p a) : Returns p (list.foldlM f a) := by
  induction list generalizing a with
  | nil => exact .pure h
  | cons c rest ih =>
    rw [List.foldlM_cons]
    exact .bind (each a c h) fun b hb => ih hb

end Returns

theorem index_returns {read : TokenReader Operand} {p : Operand → Prop} (reads : Returns p read)
    (tokenAt : Nat) (representation : UInt32) :
    Returns (fun i => ∀ r, i.relative = some r → p r) (index read tokenAt representation) := by
  have one {r : Operand} (h : p r) (offset : UInt32) :
      ∀ r', (⟨offset, some r⟩ : Index Operand).relative = some r' → p r' := by
    rintro _ ⟨⟩
    exact h
  unfold index
  split
  · exact .after fun _ => .pure nofun
  · exact .after fun _ => .pure nofun
  · exact .bind reads fun r h => .pure (one h 0)
  · exact .after fun offset => .bind reads fun r h => .pure (one h offset)
  · exact .after fun offset => .bind reads fun r h => .pure (one h offset)
  · exact .fail

theorem operandWithin_returns (depth : Nat) (data : DataType) :
    Returns (fun op => op.data = data ∧ op.Signed) (operandWithin depth data) := by
  induction depth generalizing data with
  | zero => exact .after fun _ => .fail
  | succ depth ih =>
    rw [operandWithin]
    refine .after fun tokenAt => .after fun token => ?_
    split
    · extract_lets read
      have reads (selected : Components) :
          Returns (fun op => op.data = data ∧ op.Signed) (read selected) := by
        refine .after fun modifier => ?_
        refine .bind (.mapM (fun dim => index_returns (ih .sint32) tokenAt _) _)
          fun indices known => ?_
        exact .after fun imm => .pure ⟨rfl, Operand.signed_of_indices known⟩
      split
      · exact .after reads
      · exact .after reads
    · exact .fail

theorem blank_signed (opcode : UInt32) (family : Opcode.Family) (position : Nat) (token : UInt32) :
    (blank opcode family position token).Signed :=
  ⟨fun _ h => absurd h List.not_mem_nil, fun _ h => absurd h List.not_mem_nil⟩

theorem slot_returns {inst : Instruction} (h : inst.Signed) (s : OperandSlot) :
    Returns Instruction.Signed (slot inst s) := by
  cases s with
  | dst data =>
    exact .bind (fun stop toks => operandWithin_returns toks.length data stop toks)
      fun op known => .pure ⟨signed_concat h.dst known.2, h.src⟩
  | src data =>
    exact .bind (fun stop toks => operandWithin_returns toks.length data stop toks)
      fun op known => .pure ⟨h.dst, signed_concat h.src known.2⟩
  | imm32 => exact .after fun w => .pure ⟨h.dst, h.src⟩
  | rest =>
    intro stop toks inst' rest ran
    cases ran
    exact ⟨h.dst, h.src⟩

theorem extendOpcode_signed {inst inst' : Instruction} {ext : UInt32} (h : inst.Signed)
    (extended : extendOpcode inst ext = .ok inst') : inst'.Signed := by
  unfold extendOpcode at extended
  split at extended
  all_goals cases extended
  all_goals exact ⟨h.dst, h.src⟩

theorem extensions_returns {inst : Instruction} (h : inst.Signed) (more : Bool) :
    Returns Instruction.Signed (chain extendOpcode inst more) := by
  intro stop toks inst' rest ran
  unfold chain at ran
  fun_induction chainFrom extendOpcode stop inst more toks with
  | case1 =>
    cases ran
    exact h
  | case2 => cases ran
  | case3 inst token rest extended step ih => exact ih (extendOpcode_signed h step) ran
  | case4 => cases ran

theorem operands_returns (format : Opcode.Format) {inst : Instruction} (h : inst.Signed) :
    Returns Instruction.Signed (operands format inst) := by
  refine .bind (extensions_returns h _) fun extended known => ?_
  refine .bind (.foldlM (fun _ s known => slot_returns known s) _ known) fun read known => ?_
  refine .after fun position stop toks inst' rest ran => ?_
  cases toks with
  | nil =>
    cases ran
    exact known
  | cons => cases ran

theorem instruction_signed {token : UInt32} {rest : List UInt32} {position len : Nat}
    {inst : Instruction} (h : instruction token rest position = .ok (inst, len)) : inst.Signed := by
  unfold instruction at h
  dsimp only at h
  split at h
  · unfold customData at h
    split at h
    · cases h
    · dsimp only at h
      split at h
      · cases h
      · cases h
        exact ⟨fun _ h => absurd h List.not_mem_nil, fun _ h => absurd h List.not_mem_nil⟩
  · split at h
    · cases h
    · split at h
      · cases h
      · split at h
        · cases h
        · split at h
          · next read rest' ran =>
            cases h
            exact operands_returns _ (blank_signed _ _ _ _) _ _ _ _ ran
          · cases h

theorem run_signed (toks : List UInt32) (position : Nat) :
    ∀ inst ∈ (run toks position).instructions, inst.Signed := by
  fun_induction run toks position with
  | case1 => exact fun _ h => absurd h List.not_mem_nil
  | case2 => exact fun _ h => absurd h List.not_mem_nil
  | case3 position token rest first len here_ tail ih =>
    intro inst member
    obtain rfl | member := List.mem_cons.1 member
    · exact instruction_signed here_
    · exact ih inst member

end Decode

theorem Program.signed {p : Program} {insts : List Instruction} (h : p.instructions = .ok insts) :
    ∀ inst ∈ insts, inst.Signed := by
  unfold instructions at h
  split at h
  · cases h
  · cases h
    exact Decode.run_signed _ _

namespace Signature

theorem mem_insertElement {e f : SignatureElement} {l : List SignatureElement}
    (h : f ∈ insertElement e l) : f = e ∨ f ∈ l := by
  induction l with
  | nil => exact .inl (List.mem_singleton.1 h)
  | cons first rest ih =>
    rw [insertElement] at h
    split at h
    · rcases List.mem_cons.1 h with rfl | h
      · exact .inr List.mem_cons_self
      · exact (ih h).imp_right (List.mem_cons_of_mem _)
    · exact List.mem_cons.1 h

/-- The system values of a signature are those that have a code. -/
theorem isProper_of_mem {entries : List SignatureEntry} {e : SignatureElement}
    (h : e ∈ (ofEntries entries).elements) : e.systemValue.IsProper := by
  have ofEntry (list : List SignatureEntry)
      (h : e ∈ (list.map SignatureElement.ofEntry).foldr insertElement []) :
      ∃ entry, e = .ofEntry entry := by
    induction list with
    | nil => cases h
    | cons first rest ih => exact (mem_insertElement h).elim (fun is => ⟨first, is⟩) ih
  obtain ⟨entry, rfl⟩ := ofEntry entries h
  exact SystemValue.isProper_ofCode _

end Signature

namespace Program

/-- A program with its instructions and what is fixed for it. -/
def shader (p : Program) {insts : List Instruction} (decoded : p.instructions = .ok insts)
    (entries : SignatureEntries) (options : Options) : Shader where
  env := p.environment insts entries options
  insts := insts
  signed inst mem op hop index hi r added := by
    obtain ⟨op', mem', part⟩ := List.mem_flatMap.1 hop
    have known := signed decoded inst mem
    exact (List.mem_append.1 mem').elim (known.dst op') (known.src op') op part index hi r added
  proper _ h := Signature.isProper_of_mem h

end Program

end ShaderLowering
