import BoardDesign.Proofs.File.Descent
import BoardDesign.Proofs.File.Indifferent

/-!
# What is done to the entries of a directory

The entries are taken one after the other, and each only its own place is changed for. So an entry
is found as it was at first, and is left as it is in the end.

* `Fails`: what an action fails with;
* `Confined`: an action changes nothing but what lies at some places;
* `KeepsDirs`: an action takes no directory away;
* `Turn`: what is done for one entry; `turns_of_mapM` and `turn_of_mapM_error` find the turns in
  what is done for all.
-/

namespace BoardDesign

open File File.Path World

namespace Action

variable {ε δ α β : Type} {P : ε → Prop} {w w' : World} {here : Location} {places : Location → Prop}

/-! ## What actions fail with -/

/-- Whatever the action fails with has the property. -/
def Fails (P : ε → Prop) (a : Action ε α) : Prop := ∀ w e w', a w = (.error e, w') → P e

theorem fails_pure (x : α) : Fails P (pure x : Action ε α) := by
  intro w e w' failed
  cases failed

theorem fails_throw {e : ε} (h : P e) : Fails P (throw e : Action ε α) := by
  intro w e' w' failed
  cases failed
  exact h

theorem fails_ask (f : World → α) : Fails P (ask f : Action ε α) := by
  intro w e w' failed
  cases failed

theorem fails_bind {a : Action ε α} {f : α → Action ε β} (h : Fails P a) (h' : ∀ x, Fails P (f x)) :
    Fails P (a >>= f) := by
  intro w e w' failed
  rw [bind_apply] at failed
  rcases first : a w with ⟨e' | x, w₁⟩ <;> rw [first] at failed
  · cases failed
    exact h w _ _ first
  · exact h' x w₁ e w' failed

theorem fails_mapError {a : Action δ α} {f : δ → ε} (h : ∀ e, P (f e)) : Fails P (a.mapError f) := by
  intro w e w' failed
  unfold mapError at failed
  split at failed <;> cases failed
  exact h _

theorem fails_forM {xs : List β} {f : β → Action ε PUnit} (h : ∀ x ∈ xs, Fails P (f x)) :
    Fails P (xs.forM f) := by
  induction xs with
  | nil => exact fails_pure _
  | cons x rest ih =>
    exact fails_bind (h x (.head rest)) fun _ => ih fun y mem => h y (.tail x mem)

/-! ## Actions that are confined to some places -/

/-- The action changes nothing but what lies at the places. -/
def Confined (places : Location → Prop) (here : Location) (a : Action ε α) : Prop :=
  ∀ w, w.files.Proper → w.here = here → Elsewhere here places (fun _ => False) w (a w).2

theorem confined_of_maintains {a : Action ε α}
    (h : ∀ before, Maintains (Elsewhere here places (fun _ => False) before) a) :
    Confined places here a := by
  rintro w proper rfl
  exact h w w (elsewhere_self proper)

theorem Confined.of_done {a : Action ε α} {r : Except ε α} (h : Confined places w.here a)
    (proper : w.files.Proper) (done : a w = (r, w')) :
    Elsewhere w.here places (fun _ => False) w w' := by
  have after := h w proper rfl
  rwa [done] at after

/-- The action takes no directory away. -/
def KeepsDirs (a : Action ε α) : Prop := ∀ before : World, Maintains before.Keeps a

theorem KeepsDirs.of_done {a : Action ε α} {r : Except ε α} (h : KeepsDirs a)
    (done : a w = (r, w')) : w.Keeps w' := (h w).of_done (.refl w) done

theorem keepsDirs_makeDir (path : String) : KeepsDirs (makeDir path) := fun _ =>
  maintains_changing fun _ _ kept done => kept.trans (makeDir_adds done).keeps

theorem keepsDirs_copy (source target : String) : KeepsDirs (copy source target) := by
  refine fun _ => maintains_changing fun u _ kept done => kept.trans ?_
  obtain ⟨l, name, content, x, y, -, noDir, rfl⟩ := copy_eq_ok done
  have emptied : u.Keeps { u with files := u.files.insert (l ++ [name]) (.file [] y) } :=
    keeps_insert noDir
  refine emptied.trans (keeps_insert (m := l ++ [name]) ?_)
  simp [find?_insert']

end Action

namespace World

variable {w w' u : World} {here l m : Location} {places : Location → Prop} {before : World}
  {names : List String} {name other path : String}

namespace Elsewhere

variable (h : Elsewhere here places (fun _ => False) before w)
include h

theorem find?_eq (out : ¬ places m) : w.files.find? m = before.files.find? m := by
  ext n
  refine ⟨fun found => ?_, h.kept m n out⟩
  obtain same | ⟨-, never⟩ := h.new m n out found
  · exact same
  · exact never.elim

theorem view_eq (out : ∀ rest, ¬ places (l ++ rest)) :
    w.files.view l = before.files.view l := by
  funext rest
  rw [Tree.view, Tree.view, h.find?_eq (out rest)]

end Elsewhere

theorem covers_below (here : Location) (path : String) :
    Covers (fun m => Tree.isBelow (placeFrom here path) m = true) here path :=
  covers_isBelow fun _ below => below

/-! ## Places that lie apart -/

/-- Neither place lies at or below the other. -/
structure Apart (l m : Location) : Prop where
  notBelow : ¬ Tree.isBelow l m = true
  notAbove : ¬ Tree.isBelow m l = true

namespace Apart

theorem symm (h : Apart l m) : Apart m l := ⟨h.notAbove, h.notBelow⟩

theorem append_right (h : Apart l m) (rest : Location) : Apart l (m ++ rest) := by
  refine ⟨fun below => ?_, fun above => ?_⟩
  · obtain inside | inside := List.prefix_or_prefix_of_prefix
      (List.isPrefixOf_iff_prefix.mp below) (List.prefix_append m rest)
    · exact h.notBelow (List.isPrefixOf_iff_prefix.mpr inside)
    · exact h.notAbove (List.isPrefixOf_iff_prefix.mpr inside)
  · exact h.notAbove (List.isPrefixOf_iff_prefix.mpr
      ((List.prefix_append m rest).trans (List.isPrefixOf_iff_prefix.mp above)))

theorem append_left (h : Apart l m) (rest : Location) : Apart (l ++ rest) m :=
  (h.symm.append_right rest).symm

end Apart

theorem apart_of_ne (apart : name ≠ other) : Apart (l ++ [name]) (l ++ [other]) :=
  ⟨not_isBelow_sibling apart, not_isBelow_sibling apart.symm⟩

/-! ## One entry after the other -/

/-- The worlds differ at most in the other entries of a directory. -/
def SameBut (l : Location) (names : List String) (name : String) (w u : World) : Prop :=
  ∀ m, (∀ other ∈ names, other ≠ name → ¬ Tree.isBelow (l ++ [other]) m = true) →
    u.files.find? m = w.files.find? m

theorem SameBut.view_eq (h : SameBut l names name w u) (m : Location)
    (apart : ∀ other ∈ names, other ≠ name → Apart (l ++ [other]) m) :
    u.files.view m = w.files.view m := by
  funext rest
  rw [Tree.view, Tree.view, h _ fun other mem ne => ((apart other mem ne).append_right rest).notBelow]

/-- What lies at an entry is not changed with the other ones. -/
theorem SameBut.view_entry (h : SameBut l names name w u) :
    u.files.view (l ++ [name]) = w.files.view (l ++ [name]) :=
  h.view_eq _ fun _ _ ne => apart_of_ne ne

end World

namespace Action

variable {ε α : Type} {w w' u u' : World} {l here : Location} {name : String} {names : List String}
  {step : String → Action ε α}

/-- The turn of one entry: the directories of the start are still there, and its own entry is as it
was at the start; what comes of it stays to the end. -/
structure Turn (step : String → Action ε α) (l : Location) (names : List String) (w w' : World)
    (name : String) (r : Except ε α) (u u' : World) : Prop where
  mem : name ∈ names
  keeps : w.Keeps u
  proper : u.files.Proper
  before : SameBut l names name w u
  done : step name u = (r, u')
  after : SameBut l names name u' w'

theorem forM_eq_mapM {f : String → Action ε PUnit} :
    names.forM f w = (names.mapM f >>= fun _ => pure ⟨⟩) w := by
  induction names generalizing w with
  | nil => rfl
  | cons name rest ih =>
    change (f name >>= fun _ => rest.forM f) w = _
    rw [List.mapM_cons, bind_assoc, bind_apply, bind_apply]
    rcases f name w with ⟨_ | _, w₁⟩
    · rfl
    · dsimp only
      rw [ih, bind_assoc]
      rfl

theorem exists_of_forall₂ {β γ : Type} {R : β → γ → Prop} {xs : List β} {ys : List γ} {x : β}
    (h : List.Forall₂ R xs ys) (mem : x ∈ xs) : ∃ y ∈ ys, R x y := by
  induction h with
  | nil => cases mem
  | @cons a b as bs first _ ih =>
    obtain rfl | mem := List.mem_cons.mp mem
    · exact ⟨b, .head _, first⟩
    · obtain ⟨y, mem, holds⟩ := ih mem
      exact ⟨y, .tail _ mem, holds⟩

/-- What is done for each entry is confined to its place and takes no directory away. -/
structure ByEntry (step : String → Action ε α) (l here : Location) (names : List String) : Prop where
  nodup : names.Nodup
  confined : ∀ name ∈ names,
    Confined (fun m => Tree.isBelow (l ++ [name]) m = true) here (step name)
  keeps : ∀ name ∈ names, KeepsDirs (step name)

namespace ByEntry

theorem tail (h : ByEntry step l here (name :: names)) : ByEntry step l here names :=
  ⟨(List.nodup_cons.mp h.nodup).2, fun _ mem => h.confined _ (.tail _ mem),
    fun _ mem => h.keeps _ (.tail _ mem)⟩

theorem ne (h : ByEntry step l here (name :: names)) {other : String} (mem : other ∈ names) :
    name ≠ other := fun same => (List.nodup_cons.mp h.nodup).1 (same ▸ mem)

/-- What is not at or below an entry stays. -/
theorem confined_mapM (h : ByEntry step l here names) :
    Confined (fun m => ∃ name ∈ names, Tree.isBelow (l ++ [name]) m = true) here
      (names.mapM step) := by
  refine confined_of_maintains fun before => maintains_mapM fun name mem v holds => ?_
  have each := h.confined name mem v holds.proper holds.here
  exact holds.step (each.here.trans holds.here.symm) each.proper fun m out =>
    each.find?_eq fun below => out ⟨name, mem, below⟩

/-- The turn of an entry that comes after the first one. -/
theorem turn_of_tail {w₁ : World} {r : Except ε α} {other : String}
    (first : Elsewhere here (fun m => Tree.isBelow (l ++ [name]) m = true) (fun _ => False) w w₁)
    (kept : w.Keeps w₁) (apart : name ≠ other) (turn : Turn step l names w₁ w' other r u u') :
    Turn step l (name :: names) w w' other r u u' := by
  refine ⟨.tail _ turn.mem, kept.trans turn.keeps, turn.proper, fun m out => ?_, turn.done, fun m out => ?_⟩
  · rw [turn.before m fun other' mem ne => out other' (.tail _ mem) ne,
      first.find?_eq (out name (.head _) apart)]
  · exact turn.after m fun other' mem ne => out other' (.tail _ mem) ne

variable (proper : w.files.Proper)
include proper

/-- Where all has been done each entry has had its turn. -/
theorem turns_of_mapM {ys : List α} (h : ByEntry step l w.here names)
    (done : names.mapM step w = (.ok ys, w')) :
    List.Forall₂ (fun name y => ∃ u u', Turn step l names w w' name (.ok y) u u') names ys := by
  induction names generalizing w ys with
  | nil =>
    cases done
    exact .nil
  | cons name rest ih =>
    rw [List.mapM_cons] at done
    obtain ⟨y, w₁, first, done⟩ := bind_eq_ok done
    obtain ⟨ys, w₂, others, done⟩ := bind_eq_ok done
    cases done
    have frame := (h.confined name (.head _)).of_done proper first
    have kept := (h.keeps name (.head _)).of_done first
    have h' : ByEntry step l w₁.here rest := frame.here.symm ▸ h.tail
    refine .cons ⟨w, w₁, .head _, .refl w, proper, fun _ _ => rfl, first, fun m out => ?_⟩ ?_
    · refine (h'.confined_mapM.of_done frame.proper others).find?_eq ?_
      rintro ⟨other, mem, below⟩
      exact out other (.tail _ mem) (h.ne mem).symm below
    · refine (ih frame.proper h' others).imp fun other y ⟨u, u', turn⟩ => ?_
      exact ⟨u, u', turn_of_tail frame kept (h.ne turn.mem) turn⟩

/-- What a reader finds in the directory in the end, from what the turns of the entries come to. -/
theorem view_of_mapM {ys : List α} {found : Location → Option (Option (List UInt8))}
    (h : ByEntry step l w.here names) (done : names.mapM step w = (.ok ys, w'))
    (root : w.files.view l [] = found [])
    (each : ∀ name y u u', Turn step l names w w' name (.ok y) u u' →
      ∀ rest, u'.files.view (l ++ [name]) rest = found (name :: rest))
    (others : ∀ name ∉ names, ∀ rest, w.files.view l (name :: rest) = found (name :: rest)) :
    w'.files.view l = found := by
  have frame := h.confined_mapM.of_done proper done
  funext rest
  match rest with
  | [] =>
    have outside : ¬ ∃ name ∈ names, Tree.isBelow (l ++ [name]) (l ++ []) = true := by
      rintro ⟨name, -, below⟩
      have := (List.isPrefixOf_iff_prefix.mp below).length_le
      rw [List.append_nil, List.length_append, List.length_singleton] at this
      omega
    rw [Tree.view, frame.find?_eq outside]
    exact root
  | name :: rest =>
    by_cases mem : name ∈ names
    · obtain ⟨y, -, u, u', turn⟩ := exists_of_forall₂ (h.turns_of_mapM proper done) mem
      rw [← each name y u u' turn rest, ← turn.after.view_entry]
      simp [Tree.view]
    · have outside : ¬ ∃ other ∈ names, Tree.isBelow (l ++ [other]) (l ++ name :: rest) = true := by
        rintro ⟨other, mem', below⟩
        have apart : other ≠ name := fun same => mem (same ▸ mem')
        have := not_isBelow_beside (l := l) apart rest
        rw [List.append_assoc] at this
        exact this below
      rw [Tree.view, frame.find?_eq outside]
      exact others name mem rest

/-- What fails fails in the turn of an entry. -/
theorem turn_of_mapM_error {e : ε} (h : ByEntry step l w.here names)
    (failed : names.mapM step w = (.error e, w')) :
    ∃ name u, Turn step l names w w' name (.error e : Except ε α) u w' := by
  induction names generalizing w with
  | nil => cases failed
  | cons name rest ih =>
    rw [List.mapM_cons, bind_apply] at failed
    rcases first : step name w with ⟨e' | y, w₁⟩ <;> rw [first] at failed
    · cases failed
      exact ⟨name, w, .head _, .refl w, proper, fun _ _ => rfl, first, fun _ _ => rfl⟩
    · dsimp only at failed
      rw [bind_apply] at failed
      rcases others : rest.mapM step w₁ with ⟨e' | ys, w₂⟩ <;> rw [others] at failed <;> cases failed
      have frame := (h.confined name (.head _)).of_done proper first
      have kept := (h.keeps name (.head _)).of_done first
      obtain ⟨other, u, turn⟩ := ih frame.proper (frame.here.symm ▸ h.tail) others
      exact ⟨other, u, turn_of_tail frame kept (h.ne turn.mem) turn⟩

end ByEntry

end Action

end BoardDesign
