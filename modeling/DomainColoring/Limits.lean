/-!
# Limits

The greatest sizes that are accepted. Every product and sum of sizes that drawing needs stays
far below 64 bits under them.
-/

namespace DomainColoring.Limits

/-- The longest side of a raster, in pixels. -/
def rasterSide : UInt64 := 16384

/-- The greatest number of samples along one axis. -/
def samplesPerAxis : UInt64 := 1048576

/-- The greatest number of mesh lines along one axis. -/
def meshLines : UInt64 := 10000

/-- Whether a size is at least one and at most a limit. -/
def admits (limit size : UInt64) : Bool :=
  1 ≤ size && size ≤ limit

end DomainColoring.Limits
