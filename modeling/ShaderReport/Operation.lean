/-
# `Operation` — the intrinsic operations

Calls to intrinsics name the operation by a number, their first argument.
-/
import ShaderReport.Module.Listing

namespace ShaderReport

/-- The name of an operation and the names of its arguments. -/
structure Operation where
  name : String
  signature : String
deriving DecidableEq, Inhabited

namespace Operation

/-- All operations; an operation's place is its number. -/
def all : List Operation :=
  [⟨"TempRegLoad", "(index)"⟩,
   ⟨"TempRegStore", "(index,value)"⟩,
   ⟨"MinPrecXRegLoad", "(regIndex,index,component)"⟩,
   ⟨"MinPrecXRegStore", "(regIndex,index,component,value)"⟩,
   ⟨"LoadInput", "(inputSigId,rowIndex,colIndex,gsVertexAxis)"⟩,
   ⟨"StoreOutput", "(outputtSigId,rowIndex,colIndex,value)"⟩,
   ⟨"FAbs", "(value)"⟩,
   ⟨"Saturate", "(value)"⟩,
   ⟨"IsNaN", "(value)"⟩,
   ⟨"IsInf", "(value)"⟩,
   ⟨"IsFinite", "(value)"⟩,
   ⟨"IsNormal", "(value)"⟩,
   ⟨"Cos", "(value)"⟩,
   ⟨"Sin", "(value)"⟩,
   ⟨"Tan", "(value)"⟩,
   ⟨"Acos", "(value)"⟩,
   ⟨"Asin", "(value)"⟩,
   ⟨"Atan", "(value)"⟩,
   ⟨"Hcos", "(value)"⟩,
   ⟨"Hsin", "(value)"⟩,
   ⟨"Exp", "(value)"⟩,
   ⟨"Frc", "(value)"⟩,
   ⟨"Log", "(value)"⟩,
   ⟨"Sqrt", "(value)"⟩,
   ⟨"Rsqrt", "(value)"⟩,
   ⟨"Round_ne", "(value)"⟩,
   ⟨"Round_ni", "(value)"⟩,
   ⟨"Round_pi", "(value)"⟩,
   ⟨"Round_z", "(value)"⟩,
   ⟨"Bfrev", "(value)"⟩,
   ⟨"Countbits", "(value)"⟩,
   ⟨"FirstbitLo", "(value)"⟩,
   ⟨"FirstbitHi", "(value)"⟩,
   ⟨"FirstbitSHi", "(value)"⟩,
   ⟨"FMax", "(a,b)"⟩,
   ⟨"FMin", "(a,b)"⟩,
   ⟨"IMax", "(a,b)"⟩,
   ⟨"IMin", "(a,b)"⟩,
   ⟨"UMax", "(a,b)"⟩,
   ⟨"UMin", "(a,b)"⟩,
   ⟨"IMul", "(a,b)"⟩,
   ⟨"UMul", "(a,b)"⟩,
   ⟨"UDiv", "(a,b)"⟩,
   ⟨"IAddc", "(a,b)"⟩,
   ⟨"UAddc", "(a,b)"⟩,
   ⟨"ISubc", "(a,b)"⟩,
   ⟨"USubc", "(a,b)"⟩,
   ⟨"FMad", "(a,b,c)"⟩,
   ⟨"Fma", "(a,b,c)"⟩,
   ⟨"IMad", "(a,b,c)"⟩,
   ⟨"UMad", "(a,b,c)"⟩,
   ⟨"Msad", "(a,b,c)"⟩,
   ⟨"Ibfe", "(a,b,c)"⟩,
   ⟨"Ubfe", "(a,b,c)"⟩,
   ⟨"Bfi", "(width,offset,value,replaceCount)"⟩,
   ⟨"Dot2", "(ax,ay,bx,by)"⟩,
   ⟨"Dot3", "(ax,ay,az,bx,by,bz)"⟩,
   ⟨"Dot4", "(ax,ay,az,aw,bx,by,bz,bw)"⟩,
   ⟨"CreateHandle", "(resourceClass,rangeId,index,nonUniformIndex)"⟩,
   ⟨"CBufferLoad", "(handle,byteOffset,alignment)"⟩,
   ⟨"CBufferLoadLegacy", "(handle,regIndex)"⟩,
   ⟨"Sample", "(srv,sampler,coord0,coord1,coord2,coord3,offset0,offset1,offset2,clamp)"⟩,
   ⟨"SampleBias", "(srv,sampler,coord0,coord1,coord2,coord3,offset0,offset1,offset2,bias,clamp)"⟩,
   ⟨"SampleLevel", "(srv,sampler,coord0,coord1,coord2,coord3,offset0,offset1,offset2,LOD)"⟩,
   ⟨"SampleGrad", "(srv,sampler,coord0,coord1,coord2,coord3,offset0,offset1,offset2,ddx0,ddx1,ddx2,ddy0,ddy1,ddy2,clamp)"⟩,
   ⟨"SampleCmp", "(srv,sampler,coord0,coord1,coord2,coord3,offset0,offset1,offset2,compareValue,clamp)"⟩,
   ⟨"SampleCmpLevelZero", "(srv,sampler,coord0,coord1,coord2,coord3,offset0,offset1,offset2,compareValue)"⟩,
   ⟨"TextureLoad", "(srv,mipLevelOrSampleCount,coord0,coord1,coord2,offset0,offset1,offset2)"⟩,
   ⟨"TextureStore", "(srv,coord0,coord1,coord2,value0,value1,value2,value3,mask)"⟩,
   ⟨"BufferLoad", "(srv,index,wot)"⟩,
   ⟨"BufferStore", "(uav,coord0,coord1,value0,value1,value2,value3,mask)"⟩,
   ⟨"BufferUpdateCounter", "(uav,inc)"⟩,
   ⟨"CheckAccessFullyMapped", "(status)"⟩,
   ⟨"GetDimensions", "(handle,mipLevel)"⟩,
   ⟨"TextureGather", "(srv,sampler,coord0,coord1,coord2,coord3,offset0,offset1,channel)"⟩,
   ⟨"TextureGatherCmp", "(srv,sampler,coord0,coord1,coord2,coord3,offset0,offset1,channel,compareVale)"⟩,
   ⟨"ToDelete5", "()"⟩,
   ⟨"ToDelete6", "()"⟩,
   ⟨"Texture2DMSGetSamplePosition", "(srv,index)"⟩,
   ⟨"RenderTargetGetSamplePosition", "(index)"⟩,
   ⟨"RenderTargetGetSampleCount", "()"⟩,
   ⟨"AtomicBinOp", "(handle,atomicOp,offset0,offset1,offset2,newValue)"⟩,
   ⟨"AtomicCompareExchange", "(handle,offset0,offset1,offset2,compareValue,newValue)"⟩,
   ⟨"Barrier", "(barrierMode)"⟩,
   ⟨"CalculateLOD", "(handle,sampler,coord0,coord1,coord2,clamped)"⟩,
   ⟨"Discard", "(condition)"⟩,
   ⟨"DerivCoarseX", "(value)"⟩,
   ⟨"DerivCoarseY", "(value)"⟩,
   ⟨"DerivFineX", "(value)"⟩,
   ⟨"DerivFineY", "(value)"⟩,
   ⟨"EvalSnapped", "(inputSigId,inputRowIndex,inputColIndex,offsetX,offsetY)"⟩,
   ⟨"EvalSampleIndex", "(inputSigId,inputRowIndex,inputColIndex,sampleIndex)"⟩,
   ⟨"EvalCentroid", "(inputSigId,inputRowIndex,inputColIndex)"⟩,
   ⟨"ThreadId", "(component)"⟩,
   ⟨"GroupId", "(component)"⟩,
   ⟨"ThreadIdInGroup", "(component)"⟩,
   ⟨"FlattenedThreadIdInGroup", "()"⟩,
   ⟨"EmitStream", "(streamId)"⟩,
   ⟨"CutStream", "(streamId)"⟩,
   ⟨"EmitThenCutStream", "(streamId)"⟩,
   ⟨"MakeDouble", "(lo,hi)"⟩,
   ⟨"ToDelete1", "()"⟩,
   ⟨"ToDelete2", "()"⟩,
   ⟨"SplitDouble", "(value)"⟩,
   ⟨"ToDelete3", "()"⟩,
   ⟨"ToDelete4", "()"⟩,
   ⟨"LoadOutputControlPoint", "(inputSigId,row,col,index)"⟩,
   ⟨"LoadPatchConstant", "(inputSigId,row,col)"⟩,
   ⟨"DomainLocation", "(component)"⟩,
   ⟨"StorePatchConstant", "(outputSigID,row,col,value)"⟩,
   ⟨"OutputControlPointID", "()"⟩,
   ⟨"PrimitiveID", "()"⟩,
   ⟨"CycleCounterLegacy", "()"⟩,
   ⟨"Htan", "(value)"⟩,
   ⟨"WaveCaptureReserved", "()"⟩,
   ⟨"WaveIsFirstLane", "()"⟩,
   ⟨"WaveGetLaneIndex", "()"⟩,
   ⟨"WaveGetLaneCount", "()"⟩,
   ⟨"WaveIsHelperLaneReserved", "()"⟩,
   ⟨"WaveAnyTrue", "(cond)"⟩,
   ⟨"WaveAllTrue", "(cond)"⟩,
   ⟨"WaveActiveAllEqual", "(value)"⟩,
   ⟨"WaveActiveBallot", "(cond)"⟩,
   ⟨"WaveReadLaneAt", "(value,lane)"⟩,
   ⟨"WaveReadLaneFirst", "(value)"⟩,
   ⟨"WaveActiveOp", "(value,op,sop)"⟩,
   ⟨"WaveActiveBit", "(value,op)"⟩,
   ⟨"WavePrefixOp", "(value,op,sop)"⟩,
   ⟨"WaveGetOrderedIndex", "()"⟩,
   ⟨"GlobalOrderedCountIncReserved", "()"⟩,
   ⟨"QuadReadLaneAt", "(value,quadLane)"⟩,
   ⟨"QuadOp", "(value,op)"⟩,
   ⟨"BitcastI16toF16", "(value)"⟩,
   ⟨"BitcastF16toI16", "(value)"⟩,
   ⟨"BitcastI32toF32", "(value)"⟩,
   ⟨"BitcastF32toI32", "(value)"⟩,
   ⟨"BitcastI64toF64", "(value)"⟩,
   ⟨"BitcastF64toI64", "(value)"⟩,
   ⟨"GSInstanceID", "()"⟩,
   ⟨"LegacyF32ToF16", "(value)"⟩,
   ⟨"LegacyF16ToF32", "(value)"⟩,
   ⟨"LegacyDoubleToFloat", "(value)"⟩,
   ⟨"LegacyDoubleToSInt32", "(value)"⟩,
   ⟨"LegacyDoubleToUInt32", "(value)"⟩,
   ⟨"WaveAllBitCount", "(value)"⟩,
   ⟨"WavePrefixBitCount", "(value)"⟩,
   ⟨"SampleIndex", "()"⟩,
   ⟨"Coverage", "()"⟩,
   ⟨"InnerCoverage", "()"⟩]

def ofCode? (code : Nat) : Option Operation := all[code]?

/-- How the name of every intrinsic begins. -/
def intrinsicStart : String := "dx.op."

/-- The number of the operation that an instruction calls, if it calls an intrinsic and
gives the number as a constant. -/
def codeOf? (m : Module) (i : Instruction) : Option UInt64 :=
  match i.action with
  | .call callee arguments =>
    if (m.function? callee).any fun f => Text.beginsWith intrinsicStart f.name then
      arguments.head?.bind Value.constant?
    else none
  | _ => none

def remark (m : Module) (i : Instruction) : String :=
  match codeOf? m i with
  | none => ""
  | some code =>
    match ofCode? code.toNat with
    | some op => "  ; " ++ op.name ++ op.signature
    | none => "  ; invalid DXIL opcode #" ++ code.toNat.repr

/-- Remarks that name the operations. -/
def remarks : Remarks := { afterInstruction := remark }

end Operation

end ShaderReport
