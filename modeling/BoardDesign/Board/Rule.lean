import BoardDesign.Graph.Validation
/-!
Rules that pick nodes of a design by the category or the hardware model of their types.
-/

namespace BoardDesign

structure NodeRule where
  categories : List String
  models : List String
deriving DecidableEq, Repr, Inhabited

namespace NodeRule

/-- The type lies in one of the categories or is one of the models. -/
def matchesType (r : NodeRule) (t : NodeType) : Bool :=
  r.categories.any t.inCategory || t.modelName.any r.models.contains

def leds : NodeRule := ⟨["IO/LED"], []⟩

/-- Hardware models for which there is a thermometer driver. -/
def thermometerModels : List String :=
  ["bosch_bme280", "sensirion_sht4x", "silabs_si7210", "ti_tmp108"]

def thermometers : NodeRule := ⟨["Sensors/Thermometer"], thermometerModels⟩

def toJson (r : NodeRule) : Json :=
  .obj [("categories", .arr (r.categories.map .str)), ("models", .arr (r.models.map .str))]

end NodeRule

end BoardDesign
