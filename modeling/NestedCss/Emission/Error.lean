namespace NestedCss

/-- Why text could not be delivered. -/
inductive DeliveryError where
  | sink (reason : String)
  | host (reason : String)
  deriving DecidableEq

def DeliveryError.message : DeliveryError → String
  | sink reason => "sink error: " ++ reason
  | host reason => "scheduler error: " ++ reason

end NestedCss
