import Mathlib.Init

/-!
# Configuration

The settings of `app/config/app.py` that the modelled functions read.
-/

namespace FastGeoApi

structure Configuration where
  fastgeoapiContext : String
  pygeoapiSecurityScheme : Option String

end FastGeoApi
