import ApiIntake.Conversion
import Mathlib.Tactic.Use

/-!
# Where a converted document goes

The destination decides on the tenant and the path of a configuration and on nothing else:
for another destination the conversion fails alike, or gives the same configuration at
another place (`convert_eq_map`).
-/

namespace ApiIntake

open ApiIntake.OpenApi (Document)

variable {s : Settings} {destination : Destination} {bytes : List UInt8} {c : ServerConfig}

/-- The same configuration at another place. -/
def ServerConfig.placedAt (c : ServerConfig) (place : String × String) : ServerConfig :=
  { c with tenant := place.1, pathPrefix := place.2 }

/-- Where a configuration goes that is converted by the given settings. -/
def Settings.place (s : Settings) (destination : Destination) (name : String) : String × String :=
  destination.resolve s.defaultTenant ("/" ++ name)

/-- For any destination a document gives the configuration that it gives by convention, at
the place of that destination. -/
theorem convertDocument_eq_map (s : Settings) (destination : Destination) (d : Document)
    (hash : String) :
  convertDocument s destination d hash =
    (convertDocument s .byConvention d hash).map fun c =>
      c.placedAt (s.place destination c.name)
  := by
  rw [convertDocument, convertDocument]
  split
  · rfl
  · split
    · rfl
    · cases toolsOfPaths ⟨d.root⟩ s.discovery [] d.paths with
      | error e => rfl
      | ok tools =>
          simp only [bind, Except.bind]
          cases tools.isEmpty with
          | true => rfl
          | false =>
              simp only [Bool.false_eq_true, if_false, Except.map, ServerConfig.placedAt,
                Settings.place]

/-- For any destination bytes give the configuration that they give by convention, at the
place of that destination. -/
theorem convert_eq_map (s : Settings) (destination : Destination) (bytes : List UInt8) :
  convert s destination bytes =
    (convert s .byConvention bytes).map fun c => c.placedAt (s.place destination c.name)
  := by
  cases hd : readDocument bytes with
  | error e =>
      rw [convert_of_error hd, convert_of_error hd]
      rfl
  | ok d =>
      rw [convert_of_ok hd, convert_of_ok hd]
      apply convertDocument_eq_map

/-- What is converted for a destination is what is converted by convention, at the place of
that destination. -/
theorem exists_of_convert (h : convert s destination bytes = .ok c) :
  ∃ d, convert s .byConvention bytes = .ok d ∧ c = d.placedAt (s.place destination d.name)
  := by
  rw [convert_eq_map] at h
  cases hd : convert s .byConvention bytes with
  | error e =>
      rw [hd] at h
      cases h
  | ok d =>
      rw [hd] at h
      cases h
      use d, rfl

/-- What is converted goes where its destination says. -/
theorem place_of_convert (h : convert s destination bytes = .ok c) :
  (c.tenant, c.pathPrefix) = s.place destination c.name
  := by
  obtain ⟨d, -, rfl⟩ := exists_of_convert h
  rfl

/-- What is converted for one destination is converted for any other, under the same
name. -/
theorem convert_of_convert (h : convert s destination bytes = .ok c) (other : Destination) :
  convert s other bytes = .ok (c.placedAt (s.place other c.name))
  := by
  obtain ⟨d, hd, rfl⟩ := exists_of_convert h
  rw [convert_eq_map, hd]
  rfl

end ApiIntake
