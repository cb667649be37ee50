import VersionGroups.Corpus.Reduction
import VersionGroups.Proofs.Corpus.Alike
import VersionGroups.Proofs.Entrywise

/-!
# Corpora with the same documents

Two corpora that give the same versions the same documents, whatever their spelling, are reduced
alike: the same versions are considered, the same ones are aliases of the same others, and what is
kept has the same documents again. In a fold over such corpora it is enough that one step leads from
related states to related states.
-/
namespace VersionGroups

section
variable {α β γ δ : Type} {p : Prop} {r : α → β → Prop} {s : γ → δ → Prop}

/-- Folds over related lists have related results, if the steps do. -/
theorem Alike.foldlM {step : γ → α → Except Fault γ} {step' : δ → β → Except Fault δ}
    (hstep : ∀ a b, r a b → ∀ x y, s x y → Alike p s (step x a) (step' y b)) {l : List α}
    {l' : List β} (h : List.Forall₂ r l l') {x : γ} {y : δ} (hxy : s x y) :
    Alike p s (l.foldlM step x) (l'.foldlM step' y) := by
  induction h generalizing x y with
  | nil => exact .ok hxy
  | @cons a b _ _ hab _ ih =>
      rw [List.foldlM_cons, List.foldlM_cons]
      exact (hstep a b hab x y hxy).bind fun _ _ => ih

theorem Alike.imp {q : Prop} {x : Except Fault α} {y : Except Fault β} (h : Alike p r x y)
    (hqp : q → p) : Alike q r x y := by
  cases h with
  | ok hab => exact .ok hab
  | error h => exact .error fun hq => h (hqp hq)

theorem Alike.eq {x y : Except Fault α} (h : Alike True Eq x y) : x = y := by
  cases h with
  | ok hab => rw [hab]
  | error h => rw [h trivial]

end

/-- The same versions with the same documents. -/
structure Corpus.SameAs (c c' : Corpus) : Prop where
  entries : Entrywise (fun d d' : Document => (d == d') = true) c.entries c'.entries

namespace Corpus.SameAs
variable {c c' : Corpus}

theorem keys (h : c.SameAs c') : c.keys = c'.keys := h.entries.keys

theorem get? (h : c.SameAs c') (v : Version) :
    Option.Rel (fun d d' : Document => (d == d') = true) (c.get? v) (c'.get? v) :=
  h.entries.search v

theorem contains (h : c.SameAs c') (v : Version) : c.contains v = c'.contains v := by
  have hget := h.get? v
  rw [Table.contains, Table.contains]
  generalize c.get? v = x at hget ⊢
  generalize c'.get? v = y at hget ⊢
  cases hget <;> rfl

/-- Documents that are the same have the same earliest version. -/
theorem find? (h : c.SameAs c') {d d' : Document} (hd : (d == d') = true) :
    (c.entries.find? fun e => e.2 == d).map (·.1) =
      (c'.entries.find? fun e => e.2 == d').map (·.1) := by
  have hentries := h.entries
  generalize c.entries = l at hentries ⊢
  generalize c'.entries = l' at hentries ⊢
  induction hentries with
  | nil => rfl
  | @cons e f _ _ hef _ ih =>
      have hsame : (e.2 == d) = (f.2 == d') := by
        rw [Bool.eq_iff_iff]
        constructor
        · exact fun hed => Document.beq_trans (Document.beq_symm hef.2) (Document.beq_trans hed hd)
        · exact fun hfd => Document.beq_trans hef.2 (Document.beq_trans hfd (Document.beq_symm hd))
      rw [List.find?_cons, List.find?_cons, hsame]
      split
      · exact congrArg some hef.1
      · exact ih

end Corpus.SameAs

/-- Reductions that differ in the spelling of documents only. -/
structure Reduction.SameAs (x y : Reduction) : Prop where
  kept : x.kept.SameAs y.kept
  aliases : x.aliases = y.aliases
  considered : x.considered = y.considered

theorem Reduction.SameAs.add {x y : Reduction} (h : x.SameAs y) (v : Version) {d d' : Document}
    (hd : (d == d') = true) : (x.add v d).SameAs (y.add v d') := by
  have hkept : x.keptAs? d = y.keptAs? d' := h.kept.find? hd
  rw [Reduction.add, Reduction.add, hkept, h.aliases, h.considered]
  cases y.keptAs? d' with
  | some target => exact ⟨h.kept, rfl, rfl⟩
  | none => exact ⟨⟨h.kept.entries.place v hd⟩, rfl, rfl⟩

theorem Reduction.SameAs.foldl {l l' : List (Version × Document)}
    (h : Entrywise (fun d d' : Document => (d == d') = true) l l') {x y : Reduction}
    (hxy : x.SameAs y) : (l.foldl (fun x e => x.add e.1 e.2) x).SameAs
      (l'.foldl (fun y e => y.add e.1 e.2) y) := by
  induction h generalizing x y with
  | nil => exact hxy
  | @cons e f _ _ hef _ ih =>
      have hadd := hxy.add e.1 hef.2
      rw [hef.1] at hadd
      rw [List.foldl_cons, List.foldl_cons, hef.1]
      exact ih hadd

theorem reduce_sameAs {c c' : Corpus} (h : c.SameAs c') (range : VersionRange) :
    Alike True Reduction.SameAs (reduce c range) (reduce c' range) := by
  rw [reduce, reduce, h.keys]
  split
  · have hempty : Reduction.empty.SameAs Reduction.empty := ⟨⟨.nil⟩, rfl, rfl⟩
    exact .ok (hempty.foldl (h.entries.filter range.contains))
  · exact .error fun _ => rfl

end VersionGroups
