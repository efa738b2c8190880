import BoardDesign.Proofs.Board.Platform
import BoardDesign.Proofs.File.Passing
import BoardDesign.Proofs.Generation.Together

/-!
# The simulator's files that are written together

* `Prepared`: the ways in which the making of the simulator's files can end;
* `writeFiles_together`: files are written together unless one is blocked, and so are the script
  and the description;
* `script_beside_blocked_description`: a description that is blocked.
-/

namespace BoardDesign.Board

open File File.Path World Action
open Generation (Landed OneBlocked Partway Separate Together separate_of_abreast writeFiles)

variable {ε : Type} {w w' : World} {board builds : String} {account : Generation.Error → ε}
  {templatesDir : Option String} {translate : String → Action ε String}

/-- The script and the description, with what they are to hold. -/
def PlatformFiles.both (files : PlatformFiles) (script description : String) :
    List (String × String) :=
  [(files.script, script), (files.description, description)]

/-- The making of the simulator's files fails before anything is written, or a script and a
description are written together or halfway. -/
inductive Prepared (account : Generation.Error → ε) (board : String)
    (translate : String → Action ε String) (w : World) : Except ε PlatformFiles × World → Prop
  | failed {e : ε} {w' : World} (unwritten : w' = w ∨ ∃ path, w' = (translate path w).2) :
    Prepared account board translate w (.error e, w')
  | wrote {path script description dir : String} {v w' : World}
    {result : Except Generation.Error Unit} (described : translate path w = (.ok description, v))
    (together : ¬ OneBlocked ((PlatformFiles.inDir dir board).both script description) v →
      Together ((PlatformFiles.inDir dir board).both script description) v (result, w'))
    (partway : OneBlocked ((PlatformFiles.inDir dir board).both script description) v →
      Partway ((PlatformFiles.inDir dir board).both script description) v (result, w')) :
    Prepared account board translate w
      ((result.map fun _ => PlatformFiles.inDir dir board).mapError account, w')

theorem prepared_of_described {path script description dir : String} {v : World}
    (described : translate path w = (.ok description, v)) (closed : v.files.Closed) :
    Prepared account board translate w
      (((writePlatform (PlatformFiles.inDir dir board) script description).mapError account >>=
        fun _ => pure (PlatformFiles.inDir dir board)) v) := by
  rw [bind_apply, mapError]
  by_cases blank : Text.allBlank description.toList = true
  · rw [writePlatform, if_pos blank]
    exact .failed (.inr ⟨path, by rw [described]⟩)
  · have writes : writePlatform (PlatformFiles.inDir dir board) script description v =
        writeFiles ((PlatformFiles.inDir dir board).both script description) v := by
      rw [writePlatform, if_neg blank]
      rfl
    obtain ⟨l, abreast⟩ := exists_abreast v.here dir board script description
    have separate : Separate v.here ((PlatformFiles.inDir dir board).both script description) :=
      separate_of_abreast abreast
    obtain ⟨together, partway⟩ := Generation.outcome_of_writeFiles separate closed
    rw [writes]
    generalize writeFiles ((PlatformFiles.inDir dir board).both script description) v = outcome
      at together partway ⊢
    obtain ⟨e | x, w'⟩ := outcome
    · exact .wrote described together partway
    · exact .wrote described together partway

theorem failed_of_reads {α : Type} {a : Action ε α} {f : α → Action ε PlatformFiles}
    (reads : Reads a) (h : ∀ x, Prepared account board translate w (f x w)) :
    Prepared account board translate w ((a >>= f) w) := by
  rw [bind_apply]
  rcases done : a w with ⟨e | x, w'⟩
  · exact .failed (.inl (reads.same done))
  · obtain rfl := reads.same done
    exact h x

theorem prepared_of_preparePlatform (closed : w.files.Closed)
    (translates : ∀ path, Maintains (fun w => w.files.Closed) (translate path)) :
    Prepared account board translate w
      (preparePlatform account board builds templatesDir translate w) := by
  refine failed_of_reads (((Reads.reading _).mapError _).mapError _) fun dir => ?_
  refine failed_of_reads (Reads.ask _) fun there => ?_
  split
  · exact .failed (.inl rfl)
  refine failed_of_reads ((reads_renderScript _ _ _ _).mapError _) fun script => ?_
  rw [bind_apply]
  rcases described : translate (BuildFiles.inDir dir).devicetree w with ⟨e | description, v⟩
  · exact .failed (.inr ⟨_, by rw [described]⟩)
  · exact prepared_of_described described ((translates _).of_done closed described)

/-- Files that are not in each other's way are written together, unless all can be written and one
is blocked. Then those before it hold their texts, the others are as they were, and the temporaries
of the others stay. So it is with the simulator's script and description. -/
theorem writeFiles_together (closed : w.files.Closed) :
    (∀ files, Separate w.here files →
      (¬ OneBlocked files w → Together files w (writeFiles files w)) ∧
        (OneBlocked files w → Partway files w (writeFiles files w))) ∧
    ∀ {ε : Type} (account : Generation.Error → ε) (board builds : String)
      (templatesDir : Option String) (translate : String → Action ε String),
      (∀ path, Maintains (fun w => w.files.Closed) (translate path)) →
      Prepared account board translate w
        (preparePlatform account board builds templatesDir translate w) :=
  ⟨fun _ separate => Generation.outcome_of_writeFiles separate closed,
    fun _ _ _ _ _ translates => prepared_of_preparePlatform closed translates⟩

/-! ## A description that is blocked -/

/-- A script and a description in the working directory. -/
def pair : List (String × String) := [("b.resc", "script"), ("b.repl", "cpu")]

def worldHolding (nodes : List (Location × Node)) : World := ⟨⟨nodes⟩, [], 0, [], 0, []⟩

/-- A directory where the description goes. -/
def blockedWorld : World := worldHolding [(["b.repl"], .dir)]

theorem separate_pair : Separate [] pair :=
  ⟨by decide +kernel, by decide +kernel, by decide +kernel⟩

theorem not_oneBlocked_pair : ¬ OneBlocked pair (worldHolding []) := by
  rintro ⟨-, f, mem, none | dir⟩
  · have ends : EndsIn f.1 f.1 := by
      rcases List.mem_pair.mp mem with rfl | rfl <;> exact ⟨by decide, by decide, by decide⟩
    exact none f.1 ends
  · rcases List.mem_pair.mp mem with rfl | rfl <;> exact absurd dir (by decide +kernel)

theorem oneBlocked_pair : OneBlocked pair blockedWorld := by
  have writable (path name : String) (names : World.names path = [name])
      (origin : blockedWorld.origin path = .ok []) (proper : name ≠ "." ∧ name ≠ "..")
      (short : name.utf8ByteSize ≤ longestName) (noSlash : endsWithSlash path = false)
      (noDir : blockedWorld.files.find? [name] ≠ some .dir) : blockedWorld.Writable path :=
    ⟨[], name, ⟨⟨[], [], origin, names, rfl⟩, proper, rfl, short⟩, noSlash, noDir⟩
  refine ⟨fun f mem => ?_, ("b.repl", "cpu"), by decide, .inr (by decide +kernel)⟩
  rcases List.mem_pair.mp mem with rfl | rfl
  · exact writable _ ".b.resc.tmp" (by decide +kernel) (by decide +kernel) (by decide)
      (by decide) (by decide +kernel) (by decide +kernel)
  · exact writable _ ".b.repl.tmp" (by decide +kernel) (by decide +kernel) (by decide)
      (by decide) (by decide +kernel) (by decide +kernel)

theorem writeFiles_together_pair :
    Together pair (worldHolding []) (writeFiles pair (worldHolding [])) ∧
      Partway pair blockedWorld (writeFiles pair blockedWorld) ∧
      Prepared id "b" (fun _ => pure "cpu") blockedWorld
        (preparePlatform id "b" "." none (fun _ => pure "cpu") blockedWorld) := by
  have closed (nodes : List (Location × Node)) (proper : Tree.isProper ⟨nodes⟩ = true) :
      (worldHolding nodes).files.Closed := (Tree.proper_of_isProper proper).closed
  exact ⟨((writeFiles_together (closed [] (by decide))).1 pair separate_pair).1
      not_oneBlocked_pair,
    ((writeFiles_together (closed _ (by decide))).1 pair separate_pair).2 oneBlocked_pair,
    (writeFiles_together (closed _ (by decide))).2 id "b" "." none (fun _ => pure "cpu")
      fun _ => maintains_pure _⟩

/-- The script is new, its description is as it was, and what was written beside it stays. -/
theorem script_beside_blocked_description :
    Separate blockedWorld.here pair ∧
      ¬ Together pair blockedWorld (writeFiles pair blockedWorld) ∧
      (writeFiles pair blockedWorld).2.fileAt? "b.resc" = some (Text.Utf8.bytes "script") ∧
      (writeFiles pair blockedWorld).2.fileAt? ".b.repl.tmp" = some (Text.Utf8.bytes "cpu") := by
  have failed : (writeFiles pair blockedWorld).1 = .error (.file "b.repl" .isDirectory) := by
    decide +kernel
  have script : (writeFiles pair blockedWorld).2.files.find? (blockedWorld.placeOf "b.resc") ≠
      blockedWorld.files.find? (blockedWorld.placeOf "b.resc") := by decide +kernel
  refine ⟨separate_pair, fun together => ?_, by decide +kernel, by decide +kernel⟩
  generalize writeFiles pair blockedWorld = outcome at failed script together
  cases together with
  | landed => cases failed
  | refused old => exact script (old ("b.resc", "script") (by decide))

end BoardDesign.Board
