import Telescope.Parquet.Compaction

namespace Telescope
namespace Parquet

/-!
# The cold location

The location under a program changes by the programs next to it: files are added
and files are removed, but no file is ever changed.  Next to others a request may
fail, a failed write may have been made, and listings are put together from pages.
Alone, nothing fails and nothing changes but by the program itself.
-/

variable {C : Type}

/-- All files that were ever written, and the keys of those that are gone. -/
structure Location (C : Type) where
  created : List (StoredFile C)
  removed : List Nat := []

namespace Location

def Present (location : Location C) (key : Nat) : Prop :=
  key < location.created.length ∧ key ∉ location.removed

/-- A file as listings show it. -/
def object (key : Nat) (file : StoredFile C) : StoredObject := ⟨key, file.partition, file.size⟩

/-- A listing of all files. -/
def objects (location : Location C) : List StoredObject :=
  (location.created.zipIdx.filter fun entry => decide (entry.2 ∉ location.removed)).map
    fun entry => object entry.2 entry.1

/-- The rows of a row group. -/
def groupRows (location : Location C) (group : RowGroupRef) : List (Entry C) :=
  match location.created[group.key]? with
  | some file => (file.rows.drop group.rowStart).take (group.rowEnd - group.rowStart)
  | none => []

def create (location : Location C) (file : StoredFile C) : Location C :=
  { location with created := location.created ++ [file] }

def drop (location : Location C) (key : Nat) : Location C :=
  { location with removed := location.removed ++ [key] }

theorem mem_objects {location : Location C} {listed : StoredObject} :
    listed ∈ location.objects <-> Exists fun file =>
      location.created[listed.key]? = some file ∧ listed.key ∉ location.removed ∧
        listed = object listed.key file := by
  constructor
  · intro member
    rcases List.mem_map.mp member with ⟨⟨file, key⟩, kept, rfl⟩
    rcases List.mem_filter.mp kept with ⟨isFile, present⟩
    exact ⟨file, List.mem_zipIdx_iff_getElem?.mp isFile, of_decide_eq_true present, rfl⟩
  · rintro ⟨file, isFile, present, same⟩
    exact List.mem_map.mpr ⟨(file, listed.key), List.mem_filter.mpr
      ⟨List.mem_zipIdx_iff_getElem?.mpr isFile, decide_eq_true present⟩, same.symm⟩

/-- A listing shows a file of the location. -/
def Shows (location : Location C) (listed : StoredObject) : Prop :=
  Exists fun file => location.created[listed.key]? = some file ∧ listed = object listed.key file

end Location

/-! ## The protocol -/

section Protocol

variable (alone : Bool)

/-- Files are added and removed; to a program that is alone nothing happens. -/
def Changes (location now : Location C) : Prop :=
  location.created <+: now.created ∧ (alone = true -> now = location)

theorem Changes.refl (location : Location C) : Changes alone location location :=
  ⟨List.prefix_rfl, fun _ => rfl⟩

/-- How requests are answered. -/
def Answers (encoding : Encoding C) (location : Location C) :
    (request : ColdRequest C) -> ColdReply request -> Location C -> Prop
  | .listTypes, reply, next =>
      next = location ∧
        (alone = true -> Exists fun types => reply = some types ∧ types.Nodup ∧
          forall type, type ∈ types <->
            Exists fun file => file ∈ location.objects ∧ file.partition.type = type)
  | .listDays type, reply, next =>
      next = location ∧
        (alone = true -> Exists fun days => reply = some days ∧ days.Nodup ∧
          forall day, day ∈ days <-> Exists fun file => file ∈ location.objects ∧
            file.partition.type = type ∧ floorDay file.partition.hourStart = day)
  | .listDay type day, reply, next =>
      next = location ∧
        (forall files, files ∈ reply -> forall file, file ∈ files -> location.Shows file ∧
          file.partition.type = type ∧ floorDay file.partition.hourStart = day) ∧
        (alone = true -> Exists fun files => reply = some files ∧
          files.Perm (location.objects.filter fun file => decide (file.partition.type = type ∧
            floorDay file.partition.hourStart = day)))
  | .rowGroups file, reply, next =>
      next = location ∧
        (forall groups, groups ∈ reply -> location.Present file.key ∧
          Exists fun stored => location.created[file.key]? = some stored ∧
            groups = rowGroupRefs file.key 0 stored.rowGroups) ∧
        (alone = true -> location.Present file.key -> reply.isSome)
  | .readRowGroup group, reply, next =>
      next = location ∧
        (forall rows, rows ∈ reply -> location.Present group.key ∧ rows = location.groupRows group) ∧
        (alone = true -> location.Present group.key -> reply.isSome)
  | .write partition rowGroups, made, next =>
      let written := location.create ⟨partition, rowGroups, encoding.size rowGroups⟩
      (if made then next = written else next = location ∨ next = written) ∧
        (alone = true -> made = true)
  | .remove key others, reply, next =>
      reply.1 ∈ key :: others ∧
        (if reply.2 then next = location.drop reply.1
        else next = location ∨ next = location.drop reply.1) ∧
        (alone = true -> reply.2 = true)

/-- A program over the cold location, next to others or alone. -/
def coldProtocol (encoding : Encoding C) : Protocol (Location C) (ColdRequest C) ColdReply where
  interferes := Changes alone
  interferes_refl := Changes.refl alone
  interferes_trans := fun earlier later =>
    ⟨earlier.1.trans later.1, fun isAlone => (later.2 isAlone).trans (earlier.2 isAlone)⟩
  replies := Answers alone encoding

variable {alone}

/-- To others, whatever a program does is a change. -/
theorem noticed {encoding : Encoding C} {location next : Location C}
    {request : ColdRequest C} {reply : ColdReply request}
    (replied : (coldProtocol false encoding).replies location request reply next) :
    Changes false location next := by
  have answers : Answers false encoding location request reply next := replied
  have keeps : location.created <+: next.created := by
    cases request with
    | listTypes => exact answers.1 ▸ List.prefix_rfl
    | listDays type => exact answers.1 ▸ List.prefix_rfl
    | listDay type day => exact answers.1 ▸ List.prefix_rfl
    | rowGroups file => exact answers.1 ▸ List.prefix_rfl
    | readRowGroup group => exact answers.1 ▸ List.prefix_rfl
    | write partition rowGroups =>
        have added := List.prefix_append location.created
          [⟨partition, rowGroups, encoding.size rowGroups⟩]
        cases reply with
        | true => exact answers.1 ▸ added
        | false =>
            rcases answers.1 with rfl | rfl
            · exact List.prefix_rfl
            · exact added
    | remove key others =>
        rcases reply with ⟨ended, gone⟩
        cases gone with
        | true => exact answers.2.1 ▸ List.prefix_rfl
        | false =>
            rcases answers.2.1 with rfl | rfl
            · exact List.prefix_rfl
            · exact List.prefix_rfl
  exact ⟨keeps, nofun⟩

/-- A file is never changed. -/
theorem Changes.file {location now : Location C} (changes : Changes alone location now) {key : Nat}
    {file : StoredFile C} (isFile : location.created[key]? = some file) :
    now.created[key]? = some file := by
  rcases changes.1 with ⟨more, same⟩
  rw [← same, List.getElem?_append_left (List.getElem?_eq_some_iff.mp isFile).1, isFile]

theorem Changes.groupRows {location now : Location C} (changes : Changes alone location now)
    {group : RowGroupRef} (known : group.key < location.created.length) :
    now.groupRows group = location.groupRows group := by
  have isFile := List.getElem?_eq_getElem known
  unfold Location.groupRows
  rw [changes.file isFile, isFile]

end Protocol

end Parquet
end Telescope
