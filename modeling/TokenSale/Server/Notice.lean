import TokenSale.Wire.Sale

/-!
# TokenSale.Server.Notice

What a server tells those who watch it, as it happens.
-/

namespace TokenSale

/-- One piece of news. -/
inductive Notice where
  | status (stats : SaleStats)
  | sale (event : SaleEvent)
  | logLine (level text : String)

namespace Notice

/-- The name under which watchers subscribe to this kind of news. -/
def topic : Notice → String
  | status _ => "status"
  | sale _ => "sale"
  | logLine .. => "log"

/-- A notice by its name under `type`. -/
def encode : Notice → Json
  | status stats => .obj [("type", .str "status"), ("stats", stats.encode)]
  | sale event => .obj [("type", .str "sale"), ("event", event.encode)]
  | logLine level text =>
    .obj [("type", .str "log_line"), ("level", .str level), ("msg", .str text)]

end Notice

end TokenSale
