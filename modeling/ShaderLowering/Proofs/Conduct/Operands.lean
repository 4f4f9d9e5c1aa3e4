import ShaderLowering.Proofs.Conduct.Steps
import ShaderLowering.Proofs.Program.Slots

/-!
Operands that instructions are lowered with. A decoded instruction has as many as the format of its
opcode names, and where any fault may be reported operands may be missing as well.
-/

namespace ShaderLowering

namespace Opcode

/-- The destinations and sources that each opcode of a family has at least. -/
def Family.least : Family → Nat × Nat
  | textureSample | textureGather | textureQueryLod => (1, 3)
  | atomic | bufferLoad | bufferStore | textureQuery | textureFetch | typedUavLoad
  | typedUavStore => (1, 2)
  | atomicCounter | bufferQuery | interpolate | textureQueryMs | textureQueryMsPos | bitExtract
  | bitInsert | convertFloat16 | float64 | vectorCmov | vectorCmp | vectorDeriv | vectorDot
  | vectorIdiv | vectorImul | vectorShift | vectorSinCos | vectorAlu => (1, 1)
  | declaration | customData | controlFlow | geometryEmit | barrier | hullShaderPhase
  | noOperation => (0, 0)

theorem least_destinations (op : Opcode) : op.family.least.1 ≤ op.destinations.length := by
  cases op <;> decide

theorem least_sources (op : Opcode) : op.family.least.2 ≤ op.sources.length := by
  cases op <;> decide

/-- Gathering takes an offset and a value to compare with where the opcode has them. -/
theorem gather_sources {op : Opcode} (gathers : op.family = .textureGather) :
    ((if op = .gather4Po ∨ op = .gather4PoC then 4 else 3) +
      if op = .gather4C ∨ op = .gather4PoC then 1 else 0) ≤ op.sources.length := by
  cases op
  case gather4 | gather4C | gather4Po | gather4PoC => decide
  all_goals cases gathers

/-- Atomics that compare take the value to compare with besides the one to write. -/
theorem atomic_sources {op : Opcode} (is : op.family = .atomic) :
    (if op = .atomicCmpStore ∨ op = .immAtomicCmpExch then 3 else 2) ≤ op.sources.length := by
  have least := op.least_sources
  rw [is] at least
  split
  · next compares => rcases compares with rfl | rfl <;> decide
  · exact least

/-- Only the centroid needs no source to say where. -/
theorem interpolate_sources {op : Opcode} (is : op.family = .interpolate) :
    (if op = .evalCentroid then 1 else 2) ≤ op.sources.length := by
  cases op
  case evalSnapped | evalSampleIndex | evalCentroid => decide
  all_goals cases is

/-- What an opcode needs beyond what its family does. -/
theorem special_sources {op : Opcode} {f : Family} (is : op.family = f) (special : Opcode) {n : Nat}
    (more : n ≤ special.sources.length) :
    (if op = special then n else f.least.2) ≤ op.sources.length := by
  subst is
  split
  · next same =>
    subst same
    exact more
  · exact op.least_sources

end Opcode

namespace Lower

variable {ok : CompileError → Prop} {inst : Instruction} {op : Opcode} {dsts srcs : Nat}

/-- So many destinations and sources of an instruction can be asked for. -/
structure Equipped (ok : CompileError → Prop) (inst : Instruction) (dsts srcs : Nat) : Prop where
  dst : ∀ n < dsts, Neat ok [] (destination inst n)
  src : ∀ n < srcs, Neat ok [] (source inst n)

/-- Operands that an instruction has can be asked for. -/
theorem Equipped.of_length (dst : dsts ≤ inst.dst.length) (src : srcs ≤ inst.src.length) :
    Equipped ok inst dsts srcs where
  dst _ below := .orFault_of fun missing =>
    absurd (List.getElem?_eq_none_iff.1 missing) (Nat.not_le.2 (Nat.lt_of_lt_of_le below dst))
  src _ below := .orFault_of fun missing =>
    absurd (List.getElem?_eq_none_iff.1 missing) (Nat.not_le.2 (Nat.lt_of_lt_of_le below src))

theorem Equipped.mono (given : Equipped ok inst dsts srcs) {d s : Nat} (dst : d ≤ dsts)
    (src : s ≤ srcs) : Equipped ok inst d s :=
  ⟨fun n below => given.dst n (Nat.lt_of_lt_of_le below dst),
    fun n below => given.src n (Nat.lt_of_lt_of_le below src)⟩

/-- An instruction has the operands of its opcode, or any fault counts. -/
def Provided (ok : CompileError → Prop) (inst : Instruction) : Prop :=
  (∃ op, inst.Fits op) ∨ ∀ f : Fault, ok (.fault f)

namespace Provided

/-- A lack of operands, where the opcode has them, counts. -/
theorem lacking {p : Prop} (given : Provided ok inst) (known : inst.op? = some op)
    (has : inst.Fits op → ¬p) {f : Fault} (lacks : p) : ok (.fault f) := by
  rcases given with ⟨op', fits⟩ | any
  · have same := fits.op?.symm.trans known
    cases same
    exact absurd lacks (has fits)
  · exact any f

theorem short (given : Provided ok inst) (known : inst.op? = some op) (f : Fault)
    (lacks : inst.src.length ≠ op.sources.length) : ok (.fault f) :=
  given.lacking known (fun fits differs => differs fits.length_src) lacks

/-- Operands that all opcodes have which the instruction may have can be asked for. -/
theorem equips_of (given : Provided ok inst) (enough : ∀ op, inst.Fits op →
    dsts ≤ op.destinations.length ∧ srcs ≤ op.sources.length) : Equipped ok inst dsts srcs := by
  rcases given with ⟨op, fits⟩ | any
  · obtain ⟨dst, src⟩ := enough op fits
    exact .of_length (fits.length_dst ▸ dst) (fits.length_src ▸ src)
  · exact ⟨fun _ _ => .orFault_of fun _ => any _, fun _ _ => .orFault_of fun _ => any _⟩

theorem equips (given : Provided ok inst) (known : inst.op? = some op) :
    Equipped ok inst op.destinations.length op.sources.length := by
  refine given.equips_of fun op' fits => ?_
  have same := fits.op?.symm.trans known
  cases same
  exact ⟨Nat.le_refl _, Nat.le_refl _⟩

/-- What the opcodes of a family have, and sources that some of them have besides. -/
theorem sources {f : Opcode.Family} (given : Provided ok inst) (is : inst.family = f)
    (enough : ∀ op, inst.op? = some op → op.family = f → srcs ≤ op.sources.length) :
    Equipped ok inst f.least.1 srcs := by
  refine given.equips_of fun op fits => ?_
  have family : op.family = f := fits.family.symm.trans is
  subst family
  exact ⟨op.least_destinations, enough op fits.op? rfl⟩

theorem least {f : Opcode.Family} (given : Provided ok inst) (is : inst.family = f) :
    Equipped ok inst f.least.1 f.least.2 :=
  given.sources is fun op _ family => family ▸ op.least_sources

end Provided

end Lower

end ShaderLowering
