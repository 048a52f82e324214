import Mathlib.Data.Int.Notation

/-!
# Host — Python

The values of the host's Python that records and requests are made of, and what the host uses of the
standard library.

* `PyVal`: a value as `json.loads` builds it.
* `Python`: the library functions that the host calls on texts.
-/

namespace LoraMesh

/-- A JSON value in Python. -/
inductive PyVal where
  | none
  | bool (b : Bool)
  | int (n : ℤ)
  /-- A float, by its `repr`. -/
  | float (text : String)
  | str (s : String)
  | list (xs : List PyVal)
  | dict (fields : List (String × PyVal))

/-- A `dict` with its keys in order. -/
abbrev Fields := List (String × PyVal)

namespace Fields

/-- `d.get(key)`. -/
def get (d : Fields) (key : String) : Option PyVal := d.lookup key

/-- `d[key] = v`. -/
def set (d : Fields) (key : String) (v : PyVal) : Fields :=
  if (d.get key).isSome then d.map fun f => if f.1 = key then (key, v) else f else d ++ [(key, v)]

/-- `d.update(e)`. -/
def update (d e : Fields) : Fields := e.foldl (fun d f => d.set f.1 f.2) d

/-- `type(d.get(key)) is int`, and the number; a `bool` is none. -/
def int? (d : Fields) (key : String) : Option ℤ :=
  match d.get key with
  | some (.int n) => some n
  | _ => none

/-- `type(d.get(key)) is bool`, and the truth value. -/
def bool? (d : Fields) (key : String) : Option Bool :=
  match d.get key with
  | some (.bool b) => some b
  | _ => none

end Fields

/-- The library functions. -/
structure Python where
  /-- `raw.decode("utf-8", "replace").strip()`. -/
  decode : List UInt8 → String
  /-- `json.loads`; none is a `ValueError`. -/
  loads : String → Option PyVal
  /-- `json.dumps(body, ensure_ascii=False)` in UTF-8; none is a `TypeError` or a `ValueError`. -/
  dumps : Fields → Option (List UInt8)

end LoraMesh
