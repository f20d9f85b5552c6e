import Fleet.Cluster.Basic
import Fleet.Fault

/-!
Which workers a scheduler offers to close: whole groups without a running task, those with the
least memory in use first, as long as they do not take the cluster below the target.
-/
namespace Fleet

/-- Workers that can only be closed together, by ascending id. -/
structure Group where
  name : String
  members : List Worker
  deriving DecidableEq

namespace Group

def isIdle (g : Group) : Bool := g.members.all Worker.isIdle

def memoryUsed (g : Group) : Nat := total (g.members.map Worker.memoryUsed)

def ids (g : Group) : List Id := g.members.map Worker.id

/-- The groups that come first are closed first: less memory in use, then the smaller name. -/
def before (g h : Group) : Bool :=
  g.memoryUsed < h.memoryUsed || (g.memoryUsed == h.memoryUsed && g.name ≤ h.name)

/-- Puts a group before the first one that does not come before it. -/
def insertRanked (g : Group) : List Group → List Group
  | [] => [g]
  | h :: rest => if g.before h then g :: h :: rest else h :: insertRanked g rest

def rank (groups : List Group) : List Group := groups.foldr insertRanked []

/-- Takes whole groups in order, passing over each one that would make more than `limit` workers
together with those taken before. -/
def takeFitting (limit : Nat) (taken : List Id) : List Group → List Id
  | [] => taken
  | g :: rest =>
    if limit < taken.length + g.members.length then takeFitting limit taken rest
    else takeFitting limit (taken ++ g.ids) rest

end Group

namespace Cluster

/-- The group of a worker; without a key every worker is a group of its own. -/
def groupName (key : Option GroupKey) (w : Worker) : String :=
  match key with
  | some key => key.groupOf w
  | none => w.id

/-- The connected workers by group, the groups by ascending name. -/
def groups (c : Cluster) (key : Option GroupKey) : List Group :=
  let byName : Dict (List Worker) := c.workers.values.foldl (fun d w =>
    let name := groupName key w
    d.insert name ((d.get? name).getD [] ++ [w])) ∅
  byName.entries.map fun (name, members) => ⟨name, members⟩

def idleGroups (c : Cluster) (key : Option GroupKey) : List Group :=
  (c.groups key).filter Group.isIdle

/-- Up to how many workers may be closed. -/
def closeLimit (c : Cluster) (target : Nat) : Nat := c.workers.size - target

/-- The ids of the workers that can be closed, group by group. The memory of each idle group has to
fit a word. -/
def closeCandidates (c : Cluster) (q : CloseQuery) : Except Fault (List Id) :=
  let idle := c.idleGroups q.key
  if idle.all (fun g => g.memoryUsed < Word.limit) then
    .ok (Group.takeFitting (c.closeLimit q.target) [] (Group.rank idle))
  else .error .sumTooLarge

end Cluster

end Fleet
