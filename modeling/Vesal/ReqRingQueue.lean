import Mathlib.Tactic

/-!
# The queue of results

`InflightReqRingQueue` of `req_ring_queue.h`: it gives out numbers, takes the results in any
order and hands them out in the order of the numbers. Entries are named by their index in
`reqs_`; an index outside the array is memory next to it. The array is as large as the
constructor is told, while `size_` is an `int`.
-/

namespace Vesal

structure InflightReq (Result : Type) where
  result : Result
  id : Int
deriving DecidableEq, Repr

structure InflightReqRingQueue (Result : Type) where
  size : Int
  reqs : Int → InflightReq Result
  headId : Nat
  tailId : Nat

/-- The conversion of an unsigned number to an `int`. -/
def toInt32 (n : Nat) : Int := Int.bmod n (2 ^ 32)

namespace InflightReqRingQueue

variable {Result : Type}

/-- The queue after its constructor; `blank` is a result that was not set. -/
def new (size : Nat) (blank : Result) : InflightReqRingQueue Result :=
  ⟨toInt32 size, fun _ => ⟨blank, -1⟩, 0, 0⟩

variable (q : InflightReqRingQueue Result)

def isFull : Bool := (q.tailId : Int) - q.headId == q.size

def newReq : Int × InflightReqRingQueue Result :=
  if q.isFull then (-1, q) else (q.tailId, { q with tailId := q.tailId + 1 })

def pushResult (r : Result) (id : Int) : InflightReqRingQueue Result :=
  { q with reqs := Function.update q.reqs (id.tmod q.size) ⟨r, id⟩ }

/-- The loop of `PopResults` at the index `i`, with the number of passes until `head_id` is
`tail_id`, and the room that is left in `results`. -/
def popLoop : Nat → Int → Nat → InflightReqRingQueue Result → List Result × InflightReqRingQueue Result
  | 0, _, _, q => ([], q)
  | _, _, 0, q => ([], q)
  | n + 1, i, room + 1, q =>
    if (q.reqs i).id < q.headId then ([], q)
    else
      let (results, q') := popLoop n ((i + 1).tmod q.size) room { q with headId := q.headId + 1 }
      ((q.reqs i).result :: results, q')

/-- `PopResults`; a negative size leaves no room. It divides by `size_`, which its callers see
to. -/
def popResults (size : Int) : List Result × InflightReqRingQueue Result :=
  popLoop (q.tailId - q.headId) ((q.headId : Int).tmod q.size) size.toNat q

end InflightReqRingQueue

end Vesal
