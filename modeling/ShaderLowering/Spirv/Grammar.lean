/-!
The part of the SPIR-V grammar that lowered shaders use: instruction opcodes and the enumerations
that occur as operands, each with its number.
-/

namespace ShaderLowering.Spirv

/-- Opcodes of the instructions that leave the path of execution alone. -/
inductive Op
  | accessChain | arrayLength | atomicAnd | atomicCompareExchange | atomicExchange | atomicIAdd
  | atomicISub | atomicOr | atomicSMax | atomicSMin | atomicUMax | atomicUMin | atomicXor | bitCount
  | bitFieldInsert | bitFieldSExtract | bitFieldUExtract | bitReverse | bitcast | bitwiseAnd
  | bitwiseOr | bitwiseXor | capability | compositeConstruct | compositeExtract | compositeInsert
  | constant | constantComposite | constantFalse | constantNull | constantTrue | controlBarrier
  | convertFToS | convertFToU | convertSToF | convertUToF | dPdx | dPdxCoarse | dPdxFine | dPdy
  | dPdyCoarse | dPdyFine | decorate | dot | emitVertex | endPrimitive | entryPoint | executionMode
  | extInst | extInstImport | extension | fAdd | fDiv | fMul | fNegate | fOrdEqual
  | fOrdGreaterThanEqual | fOrdLessThan | fUnordNotEqual | function | functionCall | functionEnd
  | iAdd | iAddCarry | iEqual | iMul | iNotEqual | iSub | iSubBorrow | imageDrefGather | imageFetch
  | imageGather | imageQueryLevels | imageQueryLod | imageQuerySamples | imageQuerySize
  | imageQuerySizeLod | imageRead | imageSampleDrefExplicitLod | imageSampleDrefImplicitLod
  | imageSampleExplicitLod | imageSampleImplicitLod | imageTexelPointer | imageWrite | label | load
  | memberDecorate | memoryBarrier | memoryModel | name | not | sGreaterThanEqual | sLessThan
  | sMulExtended | sNegate | sampledImage | select | shiftLeftLogical | shiftRightArithmetic
  | shiftRightLogical | store | typeArray | typeBool | typeFloat | typeFunction | typeImage
  | typeInt | typePointer | typeRuntimeArray | typeSampledImage | typeSampler | typeStruct
  | typeVector | typeVoid | uDiv | uGreaterThanEqual | uLessThan | uMod | uMulExtended | var
  | vectorShuffle
deriving DecidableEq, Repr

def Op.code : Op → UInt32
  | accessChain => 65
  | arrayLength => 68
  | atomicAnd => 240
  | atomicCompareExchange => 230
  | atomicExchange => 229
  | atomicIAdd => 234
  | atomicISub => 235
  | atomicOr => 241
  | atomicSMax => 238
  | atomicSMin => 236
  | atomicUMax => 239
  | atomicUMin => 237
  | atomicXor => 242
  | bitCount => 205
  | bitFieldInsert => 201
  | bitFieldSExtract => 202
  | bitFieldUExtract => 203
  | bitReverse => 204
  | bitcast => 124
  | bitwiseAnd => 199
  | bitwiseOr => 197
  | bitwiseXor => 198
  | capability => 17
  | compositeConstruct => 80
  | compositeExtract => 81
  | compositeInsert => 82
  | constant => 43
  | constantComposite => 44
  | constantFalse => 42
  | constantNull => 46
  | constantTrue => 41
  | controlBarrier => 224
  | convertFToS => 110
  | convertFToU => 109
  | convertSToF => 111
  | convertUToF => 112
  | dPdx => 207
  | dPdxCoarse => 213
  | dPdxFine => 210
  | dPdy => 208
  | dPdyCoarse => 214
  | dPdyFine => 211
  | decorate => 71
  | dot => 148
  | emitVertex => 218
  | endPrimitive => 219
  | entryPoint => 15
  | executionMode => 16
  | extInst => 12
  | extInstImport => 11
  | extension => 10
  | fAdd => 129
  | fDiv => 136
  | fMul => 133
  | fNegate => 127
  | fOrdEqual => 180
  | fOrdGreaterThanEqual => 190
  | fOrdLessThan => 184
  | fUnordNotEqual => 183
  | function => 54
  | functionCall => 57
  | functionEnd => 56
  | iAdd => 128
  | iAddCarry => 149
  | iEqual => 170
  | iMul => 132
  | iNotEqual => 171
  | iSub => 130
  | iSubBorrow => 150
  | imageDrefGather => 97
  | imageFetch => 95
  | imageGather => 96
  | imageQueryLevels => 106
  | imageQueryLod => 105
  | imageQuerySamples => 107
  | imageQuerySize => 104
  | imageQuerySizeLod => 103
  | imageRead => 98
  | imageSampleDrefExplicitLod => 90
  | imageSampleDrefImplicitLod => 89
  | imageSampleExplicitLod => 88
  | imageSampleImplicitLod => 87
  | imageTexelPointer => 60
  | imageWrite => 99
  | label => 248
  | load => 61
  | memberDecorate => 72
  | memoryBarrier => 225
  | memoryModel => 14
  | name => 5
  | not => 200
  | sGreaterThanEqual => 175
  | sLessThan => 177
  | sMulExtended => 152
  | sNegate => 126
  | sampledImage => 86
  | select => 169
  | shiftLeftLogical => 196
  | shiftRightArithmetic => 195
  | shiftRightLogical => 194
  | store => 62
  | typeArray => 28
  | typeBool => 20
  | typeFloat => 22
  | typeFunction => 33
  | typeImage => 25
  | typeInt => 21
  | typePointer => 32
  | typeRuntimeArray => 29
  | typeSampledImage => 27
  | typeSampler => 26
  | typeStruct => 30
  | typeVector => 23
  | typeVoid => 19
  | uDiv => 134
  | uGreaterThanEqual => 174
  | uLessThan => 176
  | uMod => 137
  | uMulExtended => 151
  | var => 59
  | vectorShuffle => 79

/-- Opcodes of the instructions that end a block or announce where its paths meet. -/
inductive ControlOp
  | branch | branchConditional | kill | loopMerge | ret | selectionMerge | switch | unreachable
deriving DecidableEq, Repr

def ControlOp.code : ControlOp → UInt32
  | branch => 249
  | branchConditional => 250
  | kill => 252
  | loopMerge => 246
  | ret => 253
  | selectionMerge => 247
  | switch => 251
  | unreachable => 255

/-- An instruction opcode. -/
inductive OpCode
  | ordinary (op : Op)
  | control (op : ControlOp)
deriving DecidableEq, Repr

def OpCode.code : OpCode → UInt32
  | ordinary op => op.code
  | control op => op.code

/-- Instructions of the extended set GLSL.std.450. -/
inductive ExtOp
  | roundEven | trunc | fAbs | sAbs | floor | ceil | fract | sin | cos | exp2 | log2 | sqrt
  | inverseSqrt | uMin | sMin | uMax | sMax | fClamp | sClamp | fma | packHalf2x16
  | unpackHalf2x16 | findILsb | findSMsb | findUMsb | interpolateAtCentroid | interpolateAtSample
  | interpolateAtOffset | nMin | nMax
deriving DecidableEq, Repr

def ExtOp.code : ExtOp → UInt32
  | roundEven => 2
  | trunc => 3
  | fAbs => 4
  | sAbs => 5
  | floor => 8
  | ceil => 9
  | fract => 10
  | sin => 13
  | cos => 14
  | exp2 => 29
  | log2 => 30
  | sqrt => 31
  | inverseSqrt => 32
  | uMin => 38
  | sMin => 39
  | uMax => 41
  | sMax => 42
  | fClamp => 43
  | sClamp => 45
  | fma => 50
  | packHalf2x16 => 58
  | unpackHalf2x16 => 62
  | findILsb => 73
  | findSMsb => 74
  | findUMsb => 75
  | interpolateAtCentroid => 76
  | interpolateAtSample => 77
  | interpolateAtOffset => 78
  | nMin => 79
  | nMax => 80

inductive Capability
  | clipDistance | cullDistance | derivativeControl | drawParameters | geometry | image1D
  | imageBuffer | imageCubeArray | imageGatherExtended | imageQuery | interpolationFunction
  | multiViewport | sampleRateShading | sampled1D | sampledBuffer | sampledCubeArray | shader
  | shaderViewportIndexLayerEXT | storageImageReadWithoutFormat | storageImageWriteWithoutFormat
  | tessellation
deriving DecidableEq, Repr

def Capability.code : Capability → UInt32
  | clipDistance => 32
  | cullDistance => 33
  | derivativeControl => 51
  | drawParameters => 4427
  | geometry => 2
  | image1D => 44
  | imageBuffer => 47
  | imageCubeArray => 34
  | imageGatherExtended => 25
  | imageQuery => 50
  | interpolationFunction => 52
  | multiViewport => 57
  | sampleRateShading => 35
  | sampled1D => 43
  | sampledBuffer => 46
  | sampledCubeArray => 45
  | shader => 1
  | shaderViewportIndexLayerEXT => 5254
  | storageImageReadWithoutFormat => 55
  | storageImageWriteWithoutFormat => 56
  | tessellation => 3

inductive Decoration
  | arrayStride | binding | block | builtIn | centroid | coherent | descriptorSet | flat
  | location | noContraction | noPerspective | nonWritable | offset | patch | sample
deriving DecidableEq, Repr

def Decoration.code : Decoration → UInt32
  | arrayStride => 6
  | binding => 33
  | block => 2
  | builtIn => 11
  | centroid => 16
  | coherent => 23
  | descriptorSet => 34
  | flat => 14
  | location => 30
  | noContraction => 42
  | noPerspective => 13
  | nonWritable => 24
  | offset => 35
  | patch => 15
  | sample => 17

inductive BuiltIn
  | baseInstance | baseVertex | clipDistance | cullDistance | fragCoord | fragDepth | frontFacing
  | globalInvocationId | instanceIndex | invocationId | layer | localInvocationId
  | localInvocationIndex | position | primitiveId | sampleId | sampleMask | tessCoord
  | tessLevelInner | tessLevelOuter | vertexIndex | viewportIndex | workgroupId
deriving DecidableEq, Repr

def BuiltIn.code : BuiltIn → UInt32
  | baseInstance => 4425
  | baseVertex => 4424
  | clipDistance => 3
  | cullDistance => 4
  | fragCoord => 15
  | fragDepth => 22
  | frontFacing => 17
  | globalInvocationId => 28
  | instanceIndex => 43
  | invocationId => 8
  | layer => 9
  | localInvocationId => 27
  | localInvocationIndex => 29
  | position => 0
  | primitiveId => 7
  | sampleId => 18
  | sampleMask => 20
  | tessCoord => 13
  | tessLevelInner => 12
  | tessLevelOuter => 11
  | vertexIndex => 42
  | viewportIndex => 10
  | workgroupId => 26

/-- The name of a built-in in the specification, which is also its debug name. -/
def BuiltIn.name : BuiltIn → String
  | baseInstance => "BaseInstance"
  | baseVertex => "BaseVertex"
  | clipDistance => "ClipDistance"
  | cullDistance => "CullDistance"
  | fragCoord => "FragCoord"
  | fragDepth => "FragDepth"
  | frontFacing => "FrontFacing"
  | globalInvocationId => "GlobalInvocationId"
  | instanceIndex => "InstanceIndex"
  | invocationId => "InvocationId"
  | layer => "Layer"
  | localInvocationId => "LocalInvocationId"
  | localInvocationIndex => "LocalInvocationIndex"
  | position => "Position"
  | primitiveId => "PrimitiveId"
  | sampleId => "SampleId"
  | sampleMask => "SampleMask"
  | tessCoord => "TessCoord"
  | tessLevelInner => "TessLevelInner"
  | tessLevelOuter => "TessLevelOuter"
  | vertexIndex => "VertexIndex"
  | viewportIndex => "ViewportIndex"
  | workgroupId => "WorkgroupId"

inductive ExecutionMode
  | depthGreater | depthLess | depthReplacing | earlyFragmentTests | inputLines
  | inputLinesAdjacency | inputPoints | inputTrianglesAdjacency | invocations | isolines
  | localSize | originUpperLeft | outputLineStrip | outputPoints | outputTriangleStrip
  | outputVertices | pointMode | quads | spacingEqual | spacingFractionalEven
  | spacingFractionalOdd | triangles | vertexOrderCcw | vertexOrderCw
deriving DecidableEq, Repr

def ExecutionMode.code : ExecutionMode → UInt32
  | depthGreater => 14
  | depthLess => 15
  | depthReplacing => 12
  | earlyFragmentTests => 9
  | inputLines => 20
  | inputLinesAdjacency => 21
  | inputPoints => 19
  | inputTrianglesAdjacency => 23
  | invocations => 0
  | isolines => 25
  | localSize => 17
  | originUpperLeft => 7
  | outputLineStrip => 28
  | outputPoints => 27
  | outputTriangleStrip => 29
  | outputVertices => 26
  | pointMode => 10
  | quads => 24
  | spacingEqual => 1
  | spacingFractionalEven => 2
  | spacingFractionalOdd => 3
  | triangles => 22
  | vertexOrderCcw => 5
  | vertexOrderCw => 4

inductive ExecutionModel
  | vertex | tessellationControl | tessellationEvaluation | geometry | fragment | gLCompute
deriving DecidableEq, Repr

def ExecutionModel.code : ExecutionModel → UInt32
  | vertex => 0
  | tessellationControl => 1
  | tessellationEvaluation => 2
  | geometry => 3
  | fragment => 4
  | gLCompute => 5

inductive StorageClass
  | uniformConstant | input | uniform | output | workgroup | priv | image | storageBuffer
deriving DecidableEq, Repr

def StorageClass.code : StorageClass → UInt32
  | uniformConstant => 0
  | input => 1
  | uniform => 2
  | output => 3
  | workgroup => 4
  | priv => 6
  | image => 11
  | storageBuffer => 12

/-- Image dimensionality. -/
inductive Dim
  | dim1D | dim2D | dim3D | cube | buffer
deriving DecidableEq, Repr

def Dim.code : Dim → UInt32
  | dim1D => 0
  | dim2D => 1
  | dim3D => 2
  | cube => 3
  | buffer => 5

inductive ImageFormat
  | unknown | r32i | r32ui
deriving DecidableEq, Repr

def ImageFormat.code : ImageFormat → UInt32
  | unknown => 0
  | r32i => 24
  | r32ui => 33

/-- The invocations that an atomic or a barrier concerns. -/
inductive Scope
  | device | workgroup | invocation
deriving DecidableEq, Repr

def Scope.code : Scope → UInt32
  | device => 1
  | workgroup => 2
  | invocation => 4

/-- Bits of a memory semantics operand. -/
structure MemorySemantics where
  bits : UInt32
deriving DecidableEq, Repr

namespace MemorySemantics

def relaxed : MemorySemantics := ⟨0⟩
def acquireRelease : MemorySemantics := ⟨0x8⟩
def uniformMemory : MemorySemantics := ⟨0x40⟩
def workgroupMemory : MemorySemantics := ⟨0x100⟩
def imageMemory : MemorySemantics := ⟨0x800⟩

instance : OrOp MemorySemantics := ⟨fun a b => ⟨a.bits ||| b.bits⟩⟩

end MemorySemantics

end ShaderLowering.Spirv
