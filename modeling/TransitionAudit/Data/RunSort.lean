/-!
# Sorting by runs

A stable sort for a comparison that may fail, and that need not be an order. Runs that stand in order
already, or in reverse, are made longer by insertion and merged in pairs; where one of two runs keeps
winning, a merge leaps ahead in growing steps. The first comparison that fails is the fault of the
whole sort, so the order of comparisons is part of what this does.
-/

namespace TransitionAudit.RunSort

section
variable {α ε : Type} (less : α → α → Except ε Bool)

/-! ## Searching -/

/-- The first place from `low` up to `high` for which the test fails, if it fails from some place on; the
search halves the places. -/
def search (test : Nat → Except ε Bool) (low high : Nat) : Except ε Nat :=
  if low < high then do
    let middle := low + (high - low) / 2
    if ← test middle then search test (middle + 1) high else search test low middle
  else .ok low
termination_by high - low

/-- Steps from one growing to twice their length and one, as long as the test holds and they are below
`most`: the last step for which it holds, and the one after it. -/
def leap (test : Nat → Except ε Bool) (most last step : Nat) : Except ε (Nat × Nat) :=
  if step < most then do
    if ← test step then leap test most step (2 * step + 1) else return (last, step)
  else .ok (last, most)
termination_by most - step

/-- Whether the element in a place is less than a key. -/
def lessThanKey (key : α) (xs : List α) (place : Nat) : Except ε Bool :=
  match xs[place]? with
  | some x => less x key
  | none => .ok false

/-- Whether a key is less than the element in a place. -/
def keyLessThan (key : α) (xs : List α) (place : Nat) : Except ε Bool :=
  match xs[place]? with
  | some x => less key x
  | none => .ok false

/-- The first place in sorted elements whose element is not less than a key, looked for from a place
near to it. -/
def placeBefore (key : α) (xs : List α) (near : Nat) : Except ε Nat := do
  let isLess := lessThanKey less key xs
  if ← isLess near then
    let (last, step) ← leap (fun step => isLess (near + step)) (xs.length - near) 0 1
    search isLess (near + last + 1) (near + step)
  else
    let (last, step) ← leap (fun step => (isLess (near - step)).map not) (near + 1) 0 1
    search isLess (near + 1 - step) (near - last)

/-- The first place in sorted elements whose element is greater than a key. -/
def placeAfter (key : α) (xs : List α) (near : Nat) : Except ε Nat := do
  let isGreater := keyLessThan less key xs
  let isNotGreater (place : Nat) : Except ε Bool := (isGreater place).map not
  if ← isGreater near then
    let (last, step) ← leap (fun step => isGreater (near - step)) (near + 1) 0 1
    search isNotGreater (near + 1 - step) (near - last)
  else
    let (last, step) ← leap (fun step => isNotGreater (near + step)) (xs.length - near) 0 1
    search isNotGreater (near + last + 1) (near + step)

/-! ## Runs -/

/-- The elements from `x` on that keep falling, or keep not falling, and the rest. -/
def takeRun (falling : Bool) (x : α) : List α → Except ε (List α × List α)
  | [] => .ok ([x], [])
  | y :: rest => do
    if (← less y x) = falling then
      let (run, rest) ← takeRun falling y rest
      return (x :: run, rest)
    else return ([x], y :: rest)

/-- The run at the start of some elements, in order, and the rest. -/
def firstRun : List α → Except ε (List α × List α)
  | x :: y :: rest => do
    let falling ← less y x
    let (run, rest) ← takeRun less falling x (y :: rest)
    return (if falling then run.reverse else run, rest)
  | xs => .ok (xs, [])

/-- Puts an element into a run, after those it is not less than. -/
def insert (run : List α) (x : α) : Except ε (List α) := do
  let place ← search (fun place => (keyLessThan less x run place).map not) 0 run.length
  return run.take place ++ x :: run.drop place

/-- A run at the start of some elements, made as long as `least` by insertion if there are as many. -/
def longRun (least : Nat) (xs : List α) : Except ε (List α × List α) := do
  let (run, rest) ← firstRun less xs
  let missing := least - run.length
  let run ← (rest.take missing).foldlM (insert less) run
  return (run, rest.drop missing)

/-! ## Merging -/

/-- By how much one run has to lead for a merge to leap. -/
def leapLead : Nat := 7

/-- A merge: finished, or with what is merged and what is left of both runs. -/
inductive Merge (α : Type)
  | done (merged : List α)
  | open (merged left right : List α)

/-- Merges two runs from the front, element by element, until one of them has led `limit` times in a
row. What is merged is in reverse. The last element of the left run comes last of all. -/
def stepFront (limit : Nat) (leads : Nat × Nat) (merged : List α) :
    List α → List α → Except ε (Merge α)
  | x :: left, y :: right => do
    if ← less y x then
      let merged := y :: merged
      if right.isEmpty then return .done (merged.reverse ++ x :: left)
      else if limit ≤ leads.2 + 1 then return .open merged (x :: left) right
      else stepFront limit (0, leads.2 + 1) merged (x :: left) right
    else
      let merged := x :: merged
      if left.length = 1 then return .done (merged.reverse ++ y :: right ++ left)
      else if limit ≤ leads.1 + 1 then return .open merged left (y :: right)
      else stepFront limit (leads.1 + 1, 0) merged left (y :: right)
  | left, right => .ok (.done (merged.reverse ++ left ++ right))
termination_by left right => left.length + right.length

/-- Merges two runs from the front by leaps, as long as they go far; with the limit for the next
leaps. The fuel bounds the number of elements. -/
def leapFront : Nat → Nat → List α → List α → List α → Except ε (Merge α × Nat)
  | fuel + 1, limit, merged, left, y :: right => do
    let limit := if 1 < limit then limit - 1 else limit
    let ahead ← placeAfter less y left 0
    let merged := (left.take ahead).reverse ++ merged
    let left := left.drop ahead
    if ahead ≠ 0 && left.length ≤ 1 then
      return (.done (merged.reverse ++ y :: right ++ left), limit)
    let merged := y :: merged
    match left, right with
    | [], _ | _, [] => return (.done (merged.reverse ++ left ++ right), limit)
    | x :: left, right =>
      let behind ← placeBefore less x right 0
      let merged := (right.take behind).reverse ++ merged
      let right := right.drop behind
      if right.isEmpty then return (.done (merged.reverse ++ x :: left), limit)
      let merged := x :: merged
      if left.length = 1 then return (.done (merged.reverse ++ right ++ left), limit)
      if leapLead ≤ ahead || leapLead ≤ behind then leapFront fuel limit merged left right
      else return (.open merged left right, limit + 1)
  | _, limit, merged, left, right => .ok (.done (merged.reverse ++ left ++ right), limit)

/-- Merges two runs from the front, by single elements and by leaps in turn. -/
def mergeFront : Nat → Nat → List α → List α → List α → Except ε (List α × Nat)
  | 0, limit, merged, left, right => .ok (merged.reverse ++ left ++ right, limit)
  | fuel + 1, limit, merged, left, right => do
    match ← stepFront less limit (0, 0) merged left right with
    | .done merged => return (merged, limit)
    | .open merged left right =>
      match ← leapFront less (left.length + right.length) (limit + 1) merged left right with
      | (.done merged, limit) => return (merged, limit)
      | (.open merged left right, limit) => mergeFront fuel limit merged left right

/-- Merges two runs, given in reverse, from the back, element by element. The first element of the
right run comes first of all. -/
def stepBack (limit : Nat) (leads : Nat × Nat) (merged : List α) :
    List α → List α → Except ε (Merge α)
  | x :: left, y :: right => do
    if ← less y x then
      let merged := x :: merged
      if left.isEmpty then return .done ((y :: right).reverse ++ merged)
      else if limit ≤ leads.1 + 1 then return .open merged left (y :: right)
      else stepBack limit (leads.1 + 1, 0) merged left (y :: right)
    else
      let merged := y :: merged
      if right.length = 1 then return .done (right ++ (x :: left).reverse ++ merged)
      else if limit ≤ leads.2 + 1 then return .open merged (x :: left) right
      else stepBack limit (0, leads.2 + 1) merged (x :: left) right
  | left, right => .ok (.done (left.reverse ++ right.reverse ++ merged))
termination_by left right => left.length + right.length

/-- Merges two runs, given in reverse, from the back by leaps. -/
def leapBack : Nat → Nat → List α → List α → List α → Except ε (Merge α × Nat)
  | fuel + 1, limit, merged, left, y :: right => do
    let limit := if 1 < limit then limit - 1 else limit
    let ahead := left.length - (← placeAfter less y left.reverse (left.length - 1))
    let merged := (left.take ahead).reverse ++ merged
    let left := left.drop ahead
    if left.isEmpty then return (.done ((y :: right).reverse ++ merged), limit)
    let merged := y :: merged
    if right.length = 1 then return (.done (right ++ left.reverse ++ merged), limit)
    match left with
    | [] => return (.done (right.reverse ++ merged), limit)
    | x :: left =>
      let behind := right.length - (← placeBefore less x right.reverse (right.length - 1))
      let merged := (right.take behind).reverse ++ merged
      let right := right.drop behind
      if behind ≠ 0 && right.length ≤ 1 then
        return (.done (right ++ (x :: left).reverse ++ merged), limit)
      let merged := x :: merged
      if left.isEmpty then return (.done (right.reverse ++ merged), limit)
      if leapLead ≤ ahead || leapLead ≤ behind then leapBack fuel limit merged left right
      else return (.open merged left right, limit + 1)
  | _, limit, merged, left, right => .ok (.done (left.reverse ++ right.reverse ++ merged), limit)

/-- Merges two runs, given in reverse, from the back, by single elements and by leaps in turn. -/
def mergeBack : Nat → Nat → List α → List α → List α → Except ε (List α × Nat)
  | 0, limit, merged, left, right => .ok (left.reverse ++ right.reverse ++ merged, limit)
  | fuel + 1, limit, merged, left, right => do
    match ← stepBack less limit (0, 0) merged left right with
    | .done merged => return (merged, limit)
    | .open merged left right =>
      match ← leapBack less (left.length + right.length) (limit + 1) merged left right with
      | (.done merged, limit) => return (merged, limit)
      | (.open merged left right, limit) => mergeBack fuel limit merged left right

/-- Merges what two runs have between the first element of the right one and the last element of the
left one, from the end that the shorter of them has. -/
def mergeInner (limit : Nat) (left right : List α) : Except ε (List α × Nat) :=
  let fuel := left.length + right.length
  if left.length ≤ right.length then
    match left, right with
    | [x], y :: right => .ok (y :: right ++ [x], limit)
    | left, [y] => .ok (y :: left, limit)
    | left, y :: right => mergeFront less fuel limit [y] left right
    | left, [] => .ok (left, limit)
  else
    match left.reverse, right.reverse with
    | [x], right => .ok (right.reverse ++ [x], limit)
    | x :: left, [y] => .ok (y :: left.reverse ++ [x], limit)
    | x :: left, right => mergeBack less fuel limit [x] left right
    | [], right => .ok (right.reverse, limit)

/-- Merges two neighbouring runs; with the limit for the next merge. -/
def merge (limit : Nat) (left right : List α) : Except ε (List α × Nat) := do
  match right.head?, left.getLast? with
  | some y, some x =>
    let start ← placeAfter less y left 0
    if start = left.length then return (left ++ right, limit)
    let stop ← placeBefore less x right (right.length - 1)
    if stop = 0 then return (left ++ right, limit)
    let (inner, limit) ← mergeInner less limit (left.drop start) (right.take stop)
    return (left.take start ++ inner ++ right.drop stop, limit)
  | _, _ => return (left ++ right, limit)

/-! ## The order of merges -/

/-- A run with its place among all elements. -/
structure Run (α : Type) where
  start : Nat
  items : List α
  /-- How deep the border to the next run lies. -/
  depth : Nat := 0

/-- How often all elements have to be halved until the middles of two neighbouring runs are apart; `a` and
`b` are twice the places of the middles. -/
def borderDepth (total : Nat) : Nat → Nat → Nat → Nat
  | 0, _, _ => 1
  | fuel + 1, a, b =>
    if total ≤ a then 1 + borderDepth total fuel (2 * (a - total)) (2 * (b - total))
    else if total ≤ b then 1
    else 1 + borderDepth total fuel (2 * a) (2 * b)

/-- Merges the last two runs as long as the border between them lies deeper. The last run comes first;
the number is the limit of merges. -/
def mergeDeeper (depth : Nat) : Nat → Nat → Run α → List (Run α) →
    Except ε (Run α × List (Run α) × Nat)
  | fuel + 1, limit, last, before :: rest => do
    if depth < before.depth then
      let (items, limit) ← merge less limit before.items last.items
      mergeDeeper depth fuel limit { before with items := items } rest
    else return (last, before :: rest, limit)
  | _, limit, last, runs => .ok (last, runs, limit)

/-- Takes one run after the other off the elements, and merges runs before as borders get less deep. -/
def collect (total least : Nat) : Nat → Nat → Nat → List (Run α) → List α →
    Except ε (List (Run α) × Nat)
  | 0, limit, _, runs, _ => .ok (runs, limit)
  | _, limit, _, runs, [] => .ok (runs, limit)
  | fuel + 1, limit, start, runs, xs => do
    let (items, rest) ← longRun less least xs
    let run : Run α := { start := start, items := items }
    match runs with
    | [] => collect total least fuel limit (start + items.length) [run] rest
    | last :: earlier =>
      let a := 2 * last.start + last.items.length
      let depth := borderDepth total total a (a + last.items.length + items.length)
      let (last, earlier, limit) ← mergeDeeper less depth runs.length limit last earlier
      let runs := run :: { last with depth := depth } :: earlier
      collect total least fuel limit (start + items.length) runs rest

/-- Merges all runs, the last one coming first. -/
def mergeAll : Nat → Nat → List (Run α) → Except ε (List α)
  | fuel + 1, limit, last :: before :: rest => do
    match rest with
    | first :: others =>
      if first.items.length < last.items.length then
        let (items, limit) ← merge less limit first.items before.items
        mergeAll fuel limit (last :: { first with items := items } :: others)
      else
        let (items, limit) ← merge less limit before.items last.items
        mergeAll fuel limit ({ before with items := items } :: first :: others)
    | [] =>
      let (items, limit) ← merge less limit before.items last.items
      mergeAll fuel limit [{ before with items := items }]
  | _, _, runs => .ok (runs.reverse.flatMap (·.items))

/-- The length that runs are brought to: from 32 to 64, so that the number of runs is close to a power of
two. -/
def leastRun (n : Nat) : Nat :=
  if 64 ≤ n then
    let (half, odd) := halve n (n, 0)
    half + odd
  else n
where
  /-- Halves a number until it is below 64; the second number tells whether a half was left over. -/
  halve : Nat → Nat × Nat → Nat × Nat
    | 0, x => x
    | fuel + 1, (n, odd) => if 64 ≤ n then halve fuel (n / 2, max odd (n % 2)) else (n, odd)

end

/-- Sorts elements. -/
def sort {α ε : Type} (less : α → α → Except ε Bool) (xs : List α) : Except ε (List α) := do
  let (runs, limit) ← collect less xs.length (leastRun xs.length) xs.length leapLead 0 [] xs
  mergeAll less runs.length limit runs

end TransitionAudit.RunSort
