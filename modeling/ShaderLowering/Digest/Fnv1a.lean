import ShaderLowering.Bytes

/-!
The 64-bit FNV-1a hash of a byte string.
-/

namespace ShaderLowering.Fnv1a

/-- The hash of the empty string. -/
def offsetBasis : UInt64 := 0xcbf29ce484222325

def prime : UInt64 := 0x100000001b3

/-- Takes one byte into a hash. -/
def absorb (hash : UInt64) (b : UInt8) : UInt64 :=
  (hash ^^^ b.toUInt64) * prime

def hash (bytes : Bytes) : UInt64 :=
  bytes.foldl absorb offsetBasis

end ShaderLowering.Fnv1a
