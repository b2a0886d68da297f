import LodgeOps.Schema.Database

namespace ProgramRequirement
open Schema

def normalised (xs : List String) : List String :=
  ((xs.map fun s => (trim s).map Char.toLower).filter fun s => s != "" && s != "0").eraseDups

def values : Listing → List String
  | .absent => []
  | .text s => normalised (s.splitOn ",")
  | .items xs => normalised xs

def quantityForParty (q : ProgramResourceRequirement) (partySize : ℕ) : ℕ :=
  let ratioQuantity := match q.guestsPerResource with
    | some g => if g = 0 then 0 else (max 1 partySize + g - 1) / g
    | none => 0
  max q.minimumQuantity ratioQuantity

def partySize (r : Reservation) : ℕ := max 1 (r.adults + r.children)

def satisfies (resource : Resource) (q : ProgramResourceRequirement) : Bool :=
  let capabilities := normalised (values resource.capabilities ++ values resource.specialties)
  let languages := values resource.languages
  resource.isActive && (values q.capabilities).all capabilities.contains &&
    (values q.languages).all languages.contains

def matchesRequirement (db : Database) (a : Allocation) (q : ProgramResourceRequirement) : Bool :=
  let resource := a.resourceId.bind db.catalogue.resource?
  let categoryId := a.requestedCategoryId <|> resource.map Resource.categoryId
  categoryId == some q.resourceCategoryId &&
    match resource with
    | none => values q.capabilities == [] && values q.languages == []
    | some r => satisfies r q

def standing (db : Database) (r : Reservation) : List Allocation :=
  (db.allocationsOf r.id).filter fun a => a.status != .released

def assignedQuantity (db : Database) (r : Reservation) (q : ProgramResourceRequirement) : ℕ :=
  (((standing db r).filter fun a => matchesRequirement db a q).map Allocation.quantity).sum

def program? (db : Database) (r : Reservation) : Option Program := r.programId.bind db.programs.find?

def requiresAccommodation (db : Database) (r : Reservation) : Bool :=
  r.programId.isNone || (program? db r).any Program.requiresAccommodation

def coversStay (db : Database) (r : Reservation) (a : Allocation) : Bool :=
  ((a.requestedCategoryId.bind db.catalogue.category?).any ResourceCategory.countsAsStay ||
      (a.resourceId.bind db.catalogue.resource?).any db.catalogue.countsAsStay) &&
    decide (a.startsAt ≤ r.startsAt ∧ r.endsAt ≤ a.endsAt)

def label (db : Database) (q : ProgramResourceRequirement) : String :=
  ((db.catalogue.category? q.resourceCategoryId).map ResourceCategory.name).getD ""

def assertRequirement (db : Database) (r : Reservation) (q : ProgramResourceRequirement) :
    Except Failure Unit :=
  let required := quantityForParty q (partySize r)
  let assigned := assignedQuantity db r q
  refuse (assigned < required) (.validation "allocations"
    ("Program requirement not met: " ++ toString required ++ " " ++ label db q ++
      " resource(s) required; " ++ toString assigned ++ " assigned."))

def assertSatisfied (db : Database) (r : Reservation) : Except Failure Unit := do
  refuse (r.programId.isSome && !(program? db r).any fun p =>
      p.propertyId == r.propertyId && p.isActive)
    (.validation "program_id"
      "The selected program must be active and belong to the reservation property.")
  refuse (requiresAccommodation db r && !(standing db r).any (coversStay db r))
    (.validation "allocations"
      "This program requires a stay-place allocation covering the full stay.")
  (((program? db r).map Program.requirements).getD []).forM (assertRequirement db r)

end ProgramRequirement
