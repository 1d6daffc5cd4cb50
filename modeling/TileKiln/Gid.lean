namespace TileKiln.Gid

def flipFlags : UInt32 := 0xF0000000

def mask : UInt32 := 0x0FFFFFFF

def tile (gid : UInt32) : UInt32 := gid &&& mask

def flips (gid : UInt32) : UInt32 := gid &&& flipFlags

/-- One past the last id of `count` ids from `first`, stopping at the largest word. -/
def rangeEnd (first count : UInt32) : UInt32 :=
  UInt32.ofNat (min (first.toNat + count.toNat) (UInt32.size - 1))

end TileKiln.Gid
