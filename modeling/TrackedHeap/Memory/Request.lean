/-!
# Requests for memory

* `Size` : a number of bytes, below `2 ^ 64`;
* `Request` : one block of a size, or an array of elements of one size;
* `Request.exact` : the bytes asked for, as an exact number;
* `Request.size?` : that number as a size, or the overflow;
* `Request.product` : the size by a multiplication that wraps;
* `AllocError` : why a request fails.
-/

namespace TrackedHeap

/-- A number of bytes, as the machine counts them: below `2 ^ 64`, and wrapping there. -/
abbrev Size := UInt64

def Size.text (n : Size) : String :=
  n.toNat.repr

/-- Why a request for memory fails. -/
inductive AllocError where
  /-- The base allocator has no block of this size. -/
  | outOfMemory (size : Size)
  /-- The bytes of the array do not fit in a size. -/
  | sizeOverflow (elementSize count : Size)
  deriving DecidableEq, Repr

namespace AllocError

def message : AllocError → String
  | outOfMemory size => "out of memory: failed to allocate " ++ size.text ++ " bytes"
  | sizeOverflow elementSize count =>
    "array size overflow: " ++ elementSize.text ++ " * " ++ count.text ++ " does not fit in usize"

def fields : AllocError → String
  | outOfMemory size => "OutOfMemory \x7b size: " ++ size.text ++ " \x7d"
  | sizeOverflow elementSize count =>
    "SizeOverflow \x7b element_size: " ++ elementSize.text ++ ", count: " ++ count.text ++ " \x7d"

end AllocError

/-- What is asked of an allocator: a block, whose bytes start unset, or an array, whose bytes start
as zero. -/
inductive Request where
  | block (size : Size)
  | array (elementSize count : Size)
  deriving DecidableEq, Repr

namespace Request

/-- The number of bytes asked for. -/
def exact : Request → Nat
  | block size => size.toNat
  | array elementSize count => elementSize.toNat * count.toNat

/-- The number of bytes asked for, by a multiplication that wraps. It is exact once `size?` has
given a size. -/
def product : Request → Size
  | block size => size
  | array elementSize count => elementSize * count

/-- The number of bytes asked for, if a size can hold it. -/
def size? : Request → Except AllocError Size
  | block size => .ok size
  | array elementSize count =>
    if elementSize.toNat * count.toNat < 1 <<< 64 then .ok (elementSize * count)
    else .error (.sizeOverflow elementSize count)

/-- The product is exact when a size can hold the bytes asked for. -/
theorem toNat_product {r : Request} (h : r.exact < 1 <<< 64) : r.product.toNat = r.exact := by
  cases r with
  | block size => rfl
  | array elementSize count =>
    rw [product, exact, UInt64.toNat_mul]
    exact Nat.mod_eq_of_lt h

/-- A request that fits in a size has the product as its size. -/
theorem size?_eq_ok {r : Request} (h : r.exact < 1 <<< 64) : r.size? = .ok r.product := by
  cases r with
  | block size => rfl
  | array elementSize count => exact if_pos h

/-- An array that fits in no size is an overflow. -/
theorem size?_array_eq_error {elementSize count : Size}
    (h : 1 <<< 64 ≤ elementSize.toNat * count.toNat) :
    (array elementSize count).size? = .error (.sizeOverflow elementSize count) :=
  if_neg (Nat.not_lt.2 h)

end Request

end TrackedHeap
