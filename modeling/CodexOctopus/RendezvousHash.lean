import Mathlib.Data.List.MinMax

/-!
# Rendezvous hashing

`select_node` of `app/core/balancer/rendezvous_hash.py`: the owner of a key is the node whose digest
together with the key is the highest. Of the digests only their order matters.
-/

namespace CodexOctopus.RendezvousHash

variable {β : Type*} [LinearOrder β] (sha256 : String → β) (key : String)

def score (node : String) : β := sha256 (key ++ ":" ++ node)

/-- `select_node`; `max` takes the first of several. -/
def selectNode : List String → Option String
  | [] => none
  | [node] => some node
  | nodes => nodes.argmax (score sha256 key)

def Distinct (nodes : List String) : Prop :=
  ∀ m ∈ nodes, ∀ n ∈ nodes, score sha256 key m = score sha256 key n → m = n

variable {sha256 key} {nodes nodes' : List String} {m : String}

theorem selectNode_eq_argmax (nodes : List String) :
    selectNode sha256 key nodes = nodes.argmax (score sha256 key) := by
  match nodes with
  | [] => rfl
  | [_] => rfl
  | _ :: _ :: _ => rfl

theorem selectNode_eq_some_iff (h : Distinct sha256 key nodes) :
    selectNode sha256 key nodes = some m ↔
      m ∈ nodes ∧ ∀ n ∈ nodes, score sha256 key n ≤ score sha256 key m := by
  rw [selectNode_eq_argmax, List.argmax_eq_some_iff]
  constructor
  · rintro ⟨hm, hle, -⟩
    exact ⟨hm, hle⟩
  · rintro ⟨hm, hle⟩
    refine ⟨hm, hle, fun n hn hmn => ?_⟩
    rw [h m hm n hn (le_antisymm hmn (hle n hn))]

variable (sha256 key) in
theorem exists_selectNode (hne : nodes ≠ []) : ∃ m, selectNode sha256 key nodes = some m := by
  rw [selectNode_eq_argmax, ← Option.isSome_iff_exists, Option.isSome_iff_ne_none, Ne,
    List.argmax_eq_none]
  exact hne

/-- Of a list and a larger one, the owner is the same unless it is one of the nodes in between. -/
theorem selectNode_of_subset (h : Distinct sha256 key nodes') (hsub : nodes ⊆ nodes')
    (hm : selectNode sha256 key nodes' = some m) (hmem : m ∈ nodes) :
    selectNode sha256 key nodes = some m := by
  have hnodes : Distinct sha256 key nodes := fun a ha b hb => h a (hsub ha) b (hsub hb)
  obtain ⟨-, hle⟩ := (selectNode_eq_some_iff h).mp hm
  exact (selectNode_eq_some_iff hnodes).mpr ⟨hmem, fun n hn => hle n (hsub hn)⟩

/-- **Rendezvous hashing moves as little as possible.** The owner depends on the set of the nodes;
without one node, the keys of the others stay; with one more, a key stays or moves to it. -/
theorem rendezvous_moves_least (sha256 : String → β) (key : String) (nodes : List String)
    (hne : nodes ≠ []) (hscores : Distinct sha256 key nodes) :
    (∀ nodes', (∀ n, n ∈ nodes' ↔ n ∈ nodes) →
      selectNode sha256 key nodes' = selectNode sha256 key nodes) ∧
    (∀ node rest, (∀ n, n ∈ rest ↔ n ∈ nodes ∧ n ≠ node) →
      selectNode sha256 key nodes ≠ some node →
      selectNode sha256 key rest = selectNode sha256 key nodes) ∧
    ∀ node more, (∀ n, n ∈ more ↔ n ∈ nodes ∨ n = node) → Distinct sha256 key more →
      selectNode sha256 key more = selectNode sha256 key nodes ∨
        selectNode sha256 key more = some node := by
  obtain ⟨m, hm⟩ := exists_selectNode sha256 key hne
  obtain ⟨hmem, -⟩ := (selectNode_eq_some_iff hscores).mp hm
  rw [hm]
  refine ⟨fun nodes' hsame => ?_, fun node rest hrest hother => ?_,
    fun node more hmore hdistinct => ?_⟩
  · exact selectNode_of_subset hscores (fun n => (hsame n).mp) hm ((hsame m).mpr hmem)
  · refine selectNode_of_subset hscores (fun n hn => ((hrest n).mp hn).1) hm ((hrest m).mpr ?_)
    exact ⟨hmem, fun heq => hother (congrArg some heq)⟩
  · have hsome : more ≠ [] := List.ne_nil_of_mem ((hmore m).mpr (.inl hmem))
    obtain ⟨owner, howner⟩ := exists_selectNode sha256 key hsome
    obtain ⟨hin, -⟩ := (selectNode_eq_some_iff hdistinct).mp howner
    rcases (hmore owner).mp hin with hold | rfl
    · have hsub : nodes ⊆ more := fun n hn => (hmore n).mpr (.inl hn)
      exact .inl (howner.trans ((selectNode_of_subset hdistinct hsub howner hold).symm.trans hm))
    · exact .inr howner

theorem rendezvous_moves_least_letters :
    selectNode String.length "k" ["bb", "a"] = some "bb" ∧
      selectNode String.length "k" ["a", "bb", "a"] = selectNode String.length "k" ["bb", "a"] := by
  have hscores : Distinct String.length "k" ["bb", "a"] := by
    unfold Distinct
    decide
  refine ⟨by decide, (rendezvous_moves_least _ _ _ (by decide) hscores).1 _ fun n => ?_⟩
  simp
  tauto

end CodexOctopus.RendezvousHash
