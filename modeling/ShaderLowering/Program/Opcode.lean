import ShaderLowering.Program.Operand

/-!
The instruction set: every opcode with its number, its name in listings, the family that decides
how it is lowered, and the operands that follow its token. `Opcode.ofCode?` finds an opcode by
number; numbers without an opcode are refused by the decoder.
-/

namespace ShaderLowering

/-- What an instruction does, in broad terms. -/
inductive Opcode.Family
  | declaration
  | customData
  | controlFlow
  | geometryEmit
  | atomic
  | atomicCounter
  | barrier
  | bitExtract
  | bitInsert
  | bufferQuery
  | bufferLoad
  | bufferStore
  | convertFloat16
  | float64
  | hullShaderPhase
  | interpolate
  | noOperation
  | textureQuery
  | textureQueryLod
  | textureQueryMs
  | textureQueryMsPos
  | textureFetch
  | textureGather
  | textureSample
  | typedUavLoad
  | typedUavStore
  | vectorAlu
  | vectorCmov
  | vectorCmp
  | vectorDeriv
  | vectorDot
  | vectorIdiv
  | vectorImul
  | vectorShift
  | vectorSinCos
deriving DecidableEq, Repr, Inhabited

/-- One position in an instruction's operand list. -/
inductive OperandSlot
  | dst (data : DataType)
  | src (data : DataType)
  | imm32
  /-- Takes every dword that is left as an immediate. -/
  | rest
deriving DecidableEq, Repr

inductive Opcode
  | add | and | breakOp | breakIf | call | callIf | caseOp | continueOp | continueIf | cut
  | defaultOp | derivRtx | derivRty | discard | div | dp2 | dp3 | dp4 | elseOp | emit
  | emitThenCut | endIf | endLoop | endSwitch | eq | exp | frc | ftoi | ftou | ge | iadd | ifOp
  | ieq | ige | ilt | imad | imax | imin | imul | ine | ineg | ishl | ishr | itof | label | ld
  | ldMs | log | loop | lt | mad | min | max | customData | mov | movc | mul | ne | nop | not
  | or | resInfo | ret | retIf | roundNe | roundNi | roundPi | roundZ | rsq | sample | sampleC
  | sampleCLz | sampleL | sampleD | sampleB | sqrt | switch | sinCos | udiv | ult | uge | umul
  | umad | umax | umin | ushr | utof | xor | dclResource | dclConstantBuffer | dclSampler
  | dclIndexRange | dclGsOutputPrimitiveTopology | dclGsInputPrimitive | dclMaxOutputVertexCount
  | dclInput | dclInputSgv | dclInputSiv | dclInputPs | dclInputPsSgv | dclInputPsSiv | dclOutput
  | dclOutputSgv | dclOutputSiv | dclTemps | dclIndexableTemp | dclGlobalFlags | lod | gather4
  | samplePos | sampleInfo | hsDecls | hsControlPointPhase | hsForkPhase | hsJoinPhase
  | emitStream | cutStream | emitThenCutStream | interfaceCall | bufInfo | derivRtxCoarse
  | derivRtxFine | derivRtyCoarse | derivRtyFine | gather4C | gather4Po | gather4PoC | rcp
  | f32ToF16 | f16ToF32 | uaddc | usubb | countBits | firstbitHi | firstbitLo | firstbitShi
  | ubfe | ibfe | bfi | bfrev | swapc | dclStream | dclFunctionBody | dclFunctionTable
  | dclInterface | dclInputControlPointCount | dclOutputControlPointCount | dclTessDomain
  | dclTessPartitioning | dclTessOutputPrimitive | dclHsMaxTessfactor
  | dclHsForkPhaseInstanceCount | dclHsJoinPhaseInstanceCount | dclThreadGroup | dclUavTyped
  | dclUavRaw | dclUavStructured | dclTgsmRaw | dclTgsmStructured | dclResourceRaw
  | dclResourceStructured | ldUavTyped | storeUavTyped | ldRaw | storeRaw | ldStructured
  | storeStructured | atomicAnd | atomicOr | atomicXor | atomicCmpStore | atomicIadd | atomicImax
  | atomicImin | atomicUmax | atomicUmin | immAtomicAlloc | immAtomicConsume | immAtomicIadd
  | immAtomicAnd | immAtomicOr | immAtomicXor | immAtomicExch | immAtomicCmpExch | immAtomicImax
  | immAtomicImin | immAtomicUmax | immAtomicUmin | sync | dadd | dmax | dmin | dmul | deq | dge
  | dlt | dne | dmov | dmovc | dtof | ftod | evalSnapped | evalSampleIndex | evalCentroid
  | dclGsInstanceCount
deriving DecidableEq, Repr

namespace Opcode

structure Format where
  /-- The number in the low bits of the opcode token. -/
  code : UInt32
  name : String
  family : Family
  operands : List OperandSlot

/-- Destination slots, then source slots, by data type. -/
def row (code : UInt32) (name : String) (family : Family)
    (dst src : List DataType) : Format :=
  ⟨code, name, family, dst.map .dst ++ src.map .src⟩

/-- A destination, if `dst` names its type, and `count` immediates. -/
def declaration (code : UInt32) (name : String) (dst : List DataType) (count : Nat) :
    Format :=
  ⟨code, name, .declaration, dst.map .dst ++ List.replicate count .imm32⟩

open DataType in
/-- The instruction table. -/
def format : Opcode → Format
  | add => row 0 "add" .vectorAlu [float32] [float32, float32]
  | and => row 1 "and" .vectorAlu [uint32] [uint32, uint32]
  | breakOp => row 2 "break" .controlFlow [] []
  | breakIf => row 3 "breakc" .controlFlow [] [uint32]
  | call => row 4 "call" .controlFlow [] [uint32]
  | callIf => row 5 "callc" .controlFlow [] [uint32, uint32]
  | caseOp => row 6 "case" .controlFlow [] [uint32]
  | continueOp => row 7 "continue" .controlFlow [] []
  | continueIf => row 8 "continuec" .controlFlow [] [uint32]
  | cut => row 9 "cut" .geometryEmit [] []
  | defaultOp => row 10 "default" .controlFlow [] []
  | derivRtx => row 11 "deriv_rtx" .vectorDeriv [float32] [float32]
  | derivRty => row 12 "deriv_rty" .vectorDeriv [float32] [float32]
  | discard => row 13 "discard" .controlFlow [] [uint32]
  | div => row 14 "div" .vectorAlu [float32] [float32, float32]
  | dp2 => row 15 "dp2" .vectorDot [float32] [float32, float32]
  | dp3 => row 16 "dp3" .vectorDot [float32] [float32, float32]
  | dp4 => row 17 "dp4" .vectorDot [float32] [float32, float32]
  | elseOp => row 18 "else" .controlFlow [] []
  | emit => row 19 "emit" .geometryEmit [] []
  | emitThenCut => row 20 "emit_then_cut" .geometryEmit [] []
  | endIf => row 21 "endif" .controlFlow [] []
  | endLoop => row 22 "endloop" .controlFlow [] []
  | endSwitch => row 23 "endswitch" .controlFlow [] []
  | eq => row 24 "eq" .vectorCmp [uint32] [float32, float32]
  | exp => row 25 "exp" .vectorAlu [float32] [float32]
  | frc => row 26 "frc" .vectorAlu [float32] [float32]
  | ftoi => row 27 "ftoi" .vectorAlu [sint32] [float32]
  | ftou => row 28 "ftou" .vectorAlu [uint32] [float32]
  | ge => row 29 "ge" .vectorCmp [uint32] [float32, float32]
  | iadd => row 30 "iadd" .vectorAlu [sint32] [sint32, sint32]
  | ifOp => row 31 "if" .controlFlow [] [uint32]
  | ieq => row 32 "ieq" .vectorCmp [uint32] [sint32, sint32]
  | ige => row 33 "ige" .vectorCmp [uint32] [sint32, sint32]
  | ilt => row 34 "ilt" .vectorCmp [uint32] [sint32, sint32]
  | imad => row 35 "imad" .vectorAlu [sint32] [sint32, sint32, sint32]
  | imax => row 36 "imax" .vectorAlu [sint32] [sint32, sint32]
  | imin => row 37 "imin" .vectorAlu [sint32] [sint32, sint32]
  | imul => row 38 "imul" .vectorImul [sint32, sint32] [sint32, sint32]
  | ine => row 39 "ine" .vectorCmp [uint32] [sint32, sint32]
  | ineg => row 40 "ineg" .vectorAlu [sint32] [sint32]
  | ishl => row 41 "ishl" .vectorShift [sint32] [sint32, uint32]
  | ishr => row 42 "ishr" .vectorShift [sint32] [sint32, uint32]
  | itof => row 43 "itof" .vectorAlu [float32] [sint32]
  | label => row 44 "label" .controlFlow [] [uint32]
  | ld => row 45 "ld" .textureFetch [float32] [sint32, float32]
  | ldMs => row 46 "ld_ms" .textureFetch [float32] [sint32, float32, sint32]
  | log => row 47 "log" .vectorAlu [float32] [float32]
  | loop => row 48 "loop" .controlFlow [] []
  | lt => row 49 "lt" .vectorCmp [uint32] [float32, float32]
  | mad => row 50 "mad" .vectorAlu [float32] [float32, float32, float32]
  | min => row 51 "min" .vectorAlu [float32] [float32, float32]
  | max => row 52 "max" .vectorAlu [float32] [float32, float32]
  | customData => row 53 "customdata" .customData [] []
  | mov => row 54 "mov" .vectorAlu [float32] [float32]
  | movc => row 55 "movc" .vectorCmov [float32] [uint32, float32, float32]
  | mul => row 56 "mul" .vectorAlu [float32] [float32, float32]
  | ne => row 57 "ne" .vectorCmp [uint32] [float32, float32]
  | nop => row 58 "nop" .noOperation [] []
  | not => row 59 "not" .vectorAlu [uint32] [uint32]
  | or => row 60 "or" .vectorAlu [uint32] [uint32, uint32]
  | resInfo => row 61 "resinfo" .textureQuery [float32] [uint32, float32]
  | ret => row 62 "ret" .controlFlow [] []
  | retIf => row 63 "retc" .controlFlow [] [uint32]
  | roundNe => row 64 "round_ne" .vectorAlu [float32] [float32]
  | roundNi => row 65 "round_ni" .vectorAlu [float32] [float32]
  | roundPi => row 66 "round_pi" .vectorAlu [float32] [float32]
  | roundZ => row 67 "round_z" .vectorAlu [float32] [float32]
  | rsq => row 68 "rsq" .vectorAlu [float32] [float32]
  | sample => row 69 "sample" .textureSample [float32] [float32, float32, float32]
  | sampleC => row 70 "sample_c" .textureSample [float32] [float32, float32, float32, float32]
  | sampleCLz => row 71 "sample_c_lz" .textureSample [float32] [float32, float32, float32, float32]
  | sampleL => row 72 "sample_l" .textureSample [float32] [float32, float32, float32, float32]
  | sampleD =>
    row 73 "sample_d" .textureSample [float32] [float32, float32, float32, float32, float32]
  | sampleB => row 74 "sample_b" .textureSample [float32] [float32, float32, float32, float32]
  | sqrt => row 75 "sqrt" .vectorAlu [float32] [float32]
  | switch => row 76 "switch" .controlFlow [] [uint32]
  | sinCos => row 77 "sincos" .vectorSinCos [float32, float32] [float32]
  | udiv => row 78 "udiv" .vectorIdiv [uint32, uint32] [uint32, uint32]
  | ult => row 79 "ult" .vectorCmp [uint32] [uint32, uint32]
  | uge => row 80 "uge" .vectorCmp [uint32] [uint32, uint32]
  | umul => row 81 "umul" .vectorImul [uint32, uint32] [uint32, uint32]
  | umad => row 82 "umad" .vectorAlu [uint32] [uint32, uint32, uint32]
  | umax => row 83 "umax" .vectorAlu [uint32] [uint32, uint32]
  | umin => row 84 "umin" .vectorAlu [uint32] [uint32, uint32]
  | ushr => row 85 "ushr" .vectorShift [uint32] [uint32, uint32]
  | utof => row 86 "utof" .vectorAlu [float32] [uint32]
  | xor => row 87 "xor" .vectorAlu [uint32] [uint32, uint32]
  | dclResource => declaration 88 "dcl_resource" [float32] 1
  | dclConstantBuffer => row 89 "dcl_constantbuffer" .declaration [] [float32]
  | dclSampler => declaration 90 "dcl_sampler" [float32] 0
  | dclIndexRange => declaration 91 "dcl_indexrange" [float32] 1
  | dclGsOutputPrimitiveTopology => declaration 92 "dcl_outputtopology" [] 0
  | dclGsInputPrimitive => declaration 93 "dcl_inputprimitive" [] 0
  | dclMaxOutputVertexCount => declaration 94 "dcl_maxout" [] 1
  | dclInput => declaration 95 "dcl_input" [float32] 0
  | dclInputSgv => declaration 96 "dcl_input_sgv" [float32] 1
  | dclInputSiv => declaration 97 "dcl_input_siv" [float32] 1
  | dclInputPs => declaration 98 "dcl_input_ps" [float32] 0
  | dclInputPsSgv => declaration 99 "dcl_input_ps_sgv" [float32] 1
  | dclInputPsSiv => declaration 100 "dcl_input_ps_siv" [float32] 1
  | dclOutput => declaration 101 "dcl_output" [float32] 0
  | dclOutputSgv => declaration 102 "dcl_output_sgv" [float32] 1
  | dclOutputSiv => declaration 103 "dcl_output_siv" [float32] 1
  | dclTemps => declaration 104 "dcl_temps" [] 1
  | dclIndexableTemp => declaration 105 "dcl_indexableTemp" [] 3
  | dclGlobalFlags => declaration 106 "dcl_globalFlags" [] 0
  | lod => row 108 "lod" .textureQueryLod [float32] [float32, float32, float32]
  | gather4 => row 109 "gather4" .textureGather [float32] [float32, float32, float32]
  | samplePos => row 110 "samplepos" .textureQueryMsPos [float32] [float32, uint32]
  | sampleInfo => row 111 "sampleinfo" .textureQueryMs [float32] [float32]
  | hsDecls => row 113 "hs_decls" .hullShaderPhase [] []
  | hsControlPointPhase => row 114 "hs_control_point_phase" .hullShaderPhase [] []
  | hsForkPhase => row 115 "hs_fork_phase" .hullShaderPhase [] []
  | hsJoinPhase => row 116 "hs_join_phase" .hullShaderPhase [] []
  | emitStream => row 117 "emit_stream" .geometryEmit [uint32] []
  | cutStream => row 118 "cut_stream" .geometryEmit [uint32] []
  | emitThenCutStream => row 119 "emit_then_cut_stream" .geometryEmit [uint32] []
  | interfaceCall => ⟨120, "fcall", .controlFlow, [.imm32, .src uint32]⟩
  | bufInfo => row 121 "bufinfo" .bufferQuery [uint32] [uint32]
  | derivRtxCoarse => row 122 "deriv_rtx_coarse" .vectorDeriv [float32] [float32]
  | derivRtxFine => row 123 "deriv_rtx_fine" .vectorDeriv [float32] [float32]
  | derivRtyCoarse => row 124 "deriv_rty_coarse" .vectorDeriv [float32] [float32]
  | derivRtyFine => row 125 "deriv_rty_fine" .vectorDeriv [float32] [float32]
  | gather4C => row 126 "gather4_c" .textureGather [float32] [float32, float32, float32, float32]
  | gather4Po => row 127 "gather4_po" .textureGather [float32] [float32, sint32, float32, float32]
  | gather4PoC =>
    row 128 "gather4_po_c" .textureGather [float32] [float32, sint32, float32, float32, float32]
  | rcp => row 129 "rcp" .vectorAlu [float32] [float32]
  | f32ToF16 => row 130 "f32tof16" .convertFloat16 [uint32] [float32]
  | f16ToF32 => row 131 "f16tof32" .convertFloat16 [float32] [uint32]
  | uaddc => row 132 "uaddc" .vectorAlu [uint32, uint32] [uint32, uint32]
  | usubb => row 133 "usubb" .vectorAlu [uint32, uint32] [uint32, uint32]
  | countBits => row 134 "countbits" .vectorAlu [uint32] [uint32]
  | firstbitHi => row 135 "firstbit_hi" .vectorAlu [uint32] [uint32]
  | firstbitLo => row 136 "firstbit_lo" .vectorAlu [uint32] [uint32]
  | firstbitShi => row 137 "firstbit_shi" .vectorAlu [uint32] [sint32]
  | ubfe => row 138 "ubfe" .bitExtract [uint32] [uint32, uint32, uint32]
  | ibfe => row 139 "ibfe" .bitExtract [sint32] [uint32, uint32, sint32]
  | bfi => row 140 "bfi" .bitInsert [uint32] [uint32, uint32, uint32, uint32]
  | bfrev => row 141 "bfrev" .vectorAlu [uint32] [uint32]
  | swapc => row 142 "swapc" .vectorCmov [float32, float32] [uint32, float32, float32]
  | dclStream => declaration 143 "dcl_stream" [uint32] 0
  | dclFunctionBody => declaration 144 "dcl_function_body" [] 1
  | dclFunctionTable => ⟨145, "dcl_function_table", .declaration, [.rest]⟩
  | dclInterface => ⟨146, "dcl_interface", .declaration, [.rest]⟩
  | dclInputControlPointCount => declaration 147 "dcl_input_control_point_count" [] 0
  | dclOutputControlPointCount => declaration 148 "dcl_output_control_point_count" [] 0
  | dclTessDomain => declaration 149 "dcl_tessellator_domain" [] 0
  | dclTessPartitioning => declaration 150 "dcl_tessellator_partitioning" [] 0
  | dclTessOutputPrimitive => declaration 151 "dcl_tessellator_output_primitive" [] 0
  | dclHsMaxTessfactor => declaration 152 "dcl_hs_max_tessfactor" [] 1
  | dclHsForkPhaseInstanceCount => declaration 153 "dcl_hs_fork_phase_instance_count" [] 1
  | dclHsJoinPhaseInstanceCount => declaration 154 "dcl_hs_join_phase_instance_count" [] 1
  | dclThreadGroup => declaration 155 "dcl_thread_group" [] 3
  | dclUavTyped => declaration 156 "dcl_uav_typed" [float32] 1
  | dclUavRaw => declaration 157 "dcl_uav_raw" [uint32] 0
  | dclUavStructured => declaration 158 "dcl_uav_structured" [uint32] 1
  | dclTgsmRaw => declaration 159 "dcl_tgsm_raw" [uint32] 1
  | dclTgsmStructured => declaration 160 "dcl_tgsm_structured" [uint32] 2
  | dclResourceRaw => declaration 161 "dcl_resource_raw" [uint32] 0
  | dclResourceStructured => declaration 162 "dcl_resource_structured" [uint32] 1
  | ldUavTyped => row 163 "ld_uav_typed" .typedUavLoad [float32] [uint32, float32]
  | storeUavTyped => row 164 "store_uav_typed" .typedUavStore [float32] [uint32, float32]
  | ldRaw => row 165 "ld_raw" .bufferLoad [uint32] [uint32, uint32]
  | storeRaw => row 166 "store_raw" .bufferStore [uint32] [uint32, uint32]
  | ldStructured => row 167 "ld_structured" .bufferLoad [uint32] [uint32, uint32, uint32]
  | storeStructured => row 168 "store_structured" .bufferStore [uint32] [uint32, uint32, uint32]
  | atomicAnd => row 169 "atomic_and" .atomic [uint32] [uint32, uint32]
  | atomicOr => row 170 "atomic_or" .atomic [uint32] [uint32, uint32]
  | atomicXor => row 171 "atomic_xor" .atomic [uint32] [uint32, uint32]
  | atomicCmpStore => row 172 "atomic_cmp_store" .atomic [uint32] [uint32, uint32, uint32]
  | atomicIadd => row 173 "atomic_iadd" .atomic [sint32] [uint32, sint32]
  | atomicImax => row 174 "atomic_imax" .atomic [sint32] [uint32, sint32]
  | atomicImin => row 175 "atomic_imin" .atomic [sint32] [uint32, sint32]
  | atomicUmax => row 176 "atomic_umax" .atomic [uint32] [uint32, uint32]
  | atomicUmin => row 177 "atomic_umin" .atomic [uint32] [uint32, uint32]
  | immAtomicAlloc => row 178 "imm_atomic_alloc" .atomicCounter [uint32] [uint32]
  | immAtomicConsume => row 179 "imm_atomic_consume" .atomicCounter [uint32] [uint32]
  | immAtomicIadd => row 180 "imm_atomic_iadd" .atomic [sint32, sint32] [uint32, sint32]
  | immAtomicAnd => row 181 "imm_atomic_and" .atomic [uint32, uint32] [uint32, uint32]
  | immAtomicOr => row 182 "imm_atomic_or" .atomic [uint32, uint32] [uint32, uint32]
  | immAtomicXor => row 183 "imm_atomic_xor" .atomic [uint32, uint32] [uint32, uint32]
  | immAtomicExch => row 184 "imm_atomic_exch" .atomic [uint32, uint32] [uint32, uint32]
  | immAtomicCmpExch =>
    row 185 "imm_atomic_cmp_exch" .atomic [uint32, uint32] [uint32, uint32, uint32]
  | immAtomicImax => row 186 "imm_atomic_imax" .atomic [sint32, sint32] [uint32, sint32]
  | immAtomicImin => row 187 "imm_atomic_imin" .atomic [sint32, sint32] [uint32, sint32]
  | immAtomicUmax => row 188 "imm_atomic_umax" .atomic [uint32, uint32] [uint32, uint32]
  | immAtomicUmin => row 189 "imm_atomic_umin" .atomic [uint32, uint32] [uint32, uint32]
  | sync => row 190 "sync" .barrier [] []
  | dadd => row 191 "dadd" .float64 [uint32] [uint32, uint32]
  | dmax => row 192 "dmax" .float64 [uint32] [uint32, uint32]
  | dmin => row 193 "dmin" .float64 [uint32] [uint32, uint32]
  | dmul => row 194 "dmul" .float64 [uint32] [uint32, uint32]
  | deq => row 195 "deq" .float64 [uint32] [uint32, uint32]
  | dge => row 196 "dge" .float64 [uint32] [uint32, uint32]
  | dlt => row 197 "dlt" .float64 [uint32] [uint32, uint32]
  | dne => row 198 "dne" .float64 [uint32] [uint32, uint32]
  | dmov => row 199 "dmov" .float64 [uint32] [uint32]
  | dmovc => row 200 "dmovc" .float64 [uint32] [uint32, uint32, uint32]
  | dtof => row 201 "dtof" .float64 [float32] [uint32]
  | ftod => row 202 "ftod" .float64 [uint32] [float32]
  | evalSnapped => row 203 "eval_snapped" .interpolate [float32] [float32, sint32]
  | evalSampleIndex => row 204 "eval_sample_index" .interpolate [float32] [float32, sint32]
  | evalCentroid => row 205 "eval_centroid" .interpolate [float32] [float32]
  | dclGsInstanceCount => declaration 206 "dcl_gs_instance_count" [] 1

/-- Every opcode, by increasing number. -/
def all : List Opcode :=
  [.add, .and, .breakOp, .breakIf, .call, .callIf, .caseOp, .continueOp, .continueIf, .cut,
   .defaultOp, .derivRtx, .derivRty, .discard, .div, .dp2, .dp3, .dp4, .elseOp, .emit,
   .emitThenCut, .endIf, .endLoop, .endSwitch, .eq, .exp, .frc, .ftoi, .ftou, .ge, .iadd, .ifOp,
   .ieq, .ige, .ilt, .imad, .imax, .imin, .imul, .ine, .ineg, .ishl, .ishr, .itof, .label, .ld,
   .ldMs, .log, .loop, .lt, .mad, .min, .max, .customData, .mov, .movc, .mul, .ne, .nop, .not,
   .or, .resInfo, .ret, .retIf, .roundNe, .roundNi, .roundPi, .roundZ, .rsq, .sample, .sampleC,
   .sampleCLz, .sampleL, .sampleD, .sampleB, .sqrt, .switch, .sinCos, .udiv, .ult, .uge, .umul,
   .umad, .umax, .umin, .ushr, .utof, .xor, .dclResource, .dclConstantBuffer, .dclSampler,
   .dclIndexRange, .dclGsOutputPrimitiveTopology, .dclGsInputPrimitive,
   .dclMaxOutputVertexCount, .dclInput, .dclInputSgv, .dclInputSiv, .dclInputPs, .dclInputPsSgv,
   .dclInputPsSiv, .dclOutput, .dclOutputSgv, .dclOutputSiv, .dclTemps, .dclIndexableTemp,
   .dclGlobalFlags, .lod, .gather4, .samplePos, .sampleInfo, .hsDecls, .hsControlPointPhase,
   .hsForkPhase, .hsJoinPhase, .emitStream, .cutStream, .emitThenCutStream, .interfaceCall,
   .bufInfo, .derivRtxCoarse, .derivRtxFine, .derivRtyCoarse, .derivRtyFine, .gather4C,
   .gather4Po, .gather4PoC, .rcp, .f32ToF16, .f16ToF32, .uaddc, .usubb, .countBits, .firstbitHi,
   .firstbitLo, .firstbitShi, .ubfe, .ibfe, .bfi, .bfrev, .swapc, .dclStream, .dclFunctionBody,
   .dclFunctionTable, .dclInterface, .dclInputControlPointCount, .dclOutputControlPointCount,
   .dclTessDomain, .dclTessPartitioning, .dclTessOutputPrimitive, .dclHsMaxTessfactor,
   .dclHsForkPhaseInstanceCount, .dclHsJoinPhaseInstanceCount, .dclThreadGroup, .dclUavTyped,
   .dclUavRaw, .dclUavStructured, .dclTgsmRaw, .dclTgsmStructured, .dclResourceRaw,
   .dclResourceStructured, .ldUavTyped, .storeUavTyped, .ldRaw, .storeRaw, .ldStructured,
   .storeStructured, .atomicAnd, .atomicOr, .atomicXor, .atomicCmpStore, .atomicIadd,
   .atomicImax, .atomicImin, .atomicUmax, .atomicUmin, .immAtomicAlloc, .immAtomicConsume,
   .immAtomicIadd, .immAtomicAnd, .immAtomicOr, .immAtomicXor, .immAtomicExch,
   .immAtomicCmpExch, .immAtomicImax, .immAtomicImin, .immAtomicUmax, .immAtomicUmin, .sync,
   .dadd, .dmax, .dmin, .dmul, .deq, .dge, .dlt, .dne, .dmov, .dmovc, .dtof, .ftod,
   .evalSnapped, .evalSampleIndex, .evalCentroid, .dclGsInstanceCount]

def code (op : Opcode) : UInt32 := op.format.code
def name (op : Opcode) : String := op.format.name
def family (op : Opcode) : Family := op.format.family

/-- The opcode with a number, if there is one. -/
def ofCode? (code : UInt32) : Option Opcode :=
  all.find? (·.code = code)

/-- The declarations of interface registers that name a system value. -/
def namesValue : Opcode → Bool
  | dclInputSgv | dclInputSiv | dclInputPsSgv | dclInputPsSiv | dclOutputSgv | dclOutputSiv => true
  | _ => false

/-- The name in diagnostics of an opcode number. -/
def nameOf (code : UInt32) : String :=
  (ofCode? code).elim "unknown" name

end Opcode

end ShaderLowering
