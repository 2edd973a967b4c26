import Recurrence.Storage.FileSystem

/-!
# What can be relied on with files

A file system is whatever the actions are by which files are read and written.  A `FileView` tells what
there is to be seen of them: the worlds that the actions go through, where the paths lead in a world, and
what the files hold.  The laws that a file system has to keep (`FileSystem.Lawful`) are stated by what is
seen, and everything about schedules in files is proved from these laws.

The files that are seen are ordinary ones.  A device to which bytes can be written that nobody can read is
not seen, and a system in which a path leads to one keeps the laws only if it refuses to write there.
-/

namespace Recurrence

/-- How actions are run, and what can be seen of the files in between. -/
structure FileView (m : Type → Type) [Monad m] where
  /-- The worlds that the actions go through. -/
  World : Type
  /-- The files that there are or can be. -/
  File : Type
  run : {α : Type} → m α → World → α × World
  /-- What a file holds, if there is such a file. -/
  contents? : World → File → Option Bytes
  /-- The file to which a path leads, if it leads to one. -/
  file? : World → String → Option File
  run_pure : ∀ {α : Type} (a : α) (world : World), run (pure a : m α) world = (a, world)
  run_bind : ∀ {α β : Type} (action : m α) (next : α → m β) (world : World),
    run (action >>= next) world = run (next (run action world).1) (run action world).2

namespace FileView

variable {m : Type → Type} [Monad m] (view : FileView m)

/-- No file holds anything else than before. -/
def Unchanged (before after : view.World) : Prop :=
  ∀ file, view.contents? after file = view.contents? before file

/-- No file holds anything else than before, but for the one to which a path leads. -/
def UnchangedBut (path : String) (before after : view.World) : Prop :=
  ∀ file, view.file? before path ≠ some file → view.contents? after file = view.contents? before file

variable {view}

theorem Unchanged.refl (world : view.World) : view.Unchanged world world :=
  fun _ => rfl

end FileView

/-- Some bytes can be written along a path. -/
def FileSystem.CanWrite {m : Type → Type} [Monad m] (files : FileSystem m) (view : FileView m)
    (world : view.World) (path : String) (contents : Bytes) : Prop :=
  (view.run (files.write path contents) world).1 = .ok ()

/-- What can be relied on when files are read and written. -/
structure FileSystem.Lawful {m : Type → Type} [Monad m] (files : FileSystem m) (view : FileView m) :
    Prop where
  /-- Reading changes no file. -/
  unchanged_read : ∀ (world : view.World) (path : String),
    view.Unchanged world (view.run (files.read path) world).2
  /-- What is read is held by the file to which the path leads. -/
  contents?_read : ∀ (world : view.World) (path : String) (file : view.File) (contents : Bytes),
    view.file? world path = some file →
      (view.run (files.read path) world).1 = .ok contents → view.contents? world file = some contents
  /-- Writing changes no file but the one to which the path leads. -/
  unchangedBut_write : ∀ (world : view.World) (path : String) (contents : Bytes),
    view.UnchangedBut path world (view.run (files.write path contents) world).2
  /-- If the file cannot even be opened, writing changes no file at all. -/
  unchanged_write : ∀ (world : view.World) (path : String) (contents : Bytes) (fault : FileFault),
    (view.run (files.write path contents) world).1 = .error ⟨.opening, fault⟩ →
      view.Unchanged world (view.run (files.write path contents) world).2
  /-- What was written is held by the file to which the path leads. -/
  contents?_write : ∀ (world : view.World) (path : String) (contents : Bytes),
    files.CanWrite view world path contents →
      ∃ file, view.file? world path = some file ∧
        view.contents? (view.run (files.write path contents) world).2 file = some contents
  /-- What was written is what is read along the same path. -/
  read_write : ∀ (world : view.World) (path : String) (contents : Bytes),
    files.CanWrite view world path contents →
      (view.run (files.read path) (view.run (files.write path contents) world).2).1 = .ok contents

end Recurrence
