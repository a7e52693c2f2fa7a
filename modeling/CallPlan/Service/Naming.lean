import CallPlan.Fields
import CallPlan.Text.Case

/-!
# Names of services

A command names the type of an object, such as `CloudWatchLogs`. The session that performs
calls knows services under names of its own, such as `logs`: the type in lower case unless
an alias says otherwise.
-/

namespace CallPlan.Naming

/-- Services whose names are not the lower case of their types. -/
def knownAliases : List (String × String) := [
  ("applicationautoscaling", "application-autoscaling"),
  ("cloudwatchevents", "events"),
  ("cloudwatchlogs", "logs"),
  ("cognitoidentity", "cognito-identity"),
  ("cognitoidentityserviceprovider", "cognito-idp"),
  ("cognitosync", "cognito-sync"),
  ("configservice", "config"),
  ("eventbridge", "events"),
  ("iotdata", "iot-data"),
  ("lexmodelbuildingservice", "lex-models"),
  ("lexruntime", "lex-runtime"),
  ("marketplacemetering", "meteringmarketplace"),
  ("sagemakerruntime", "sagemaker-runtime"),
  ("servicequotas", "service-quotas"),
  ("transcribeservice", "transcribe")]

/-- The service that a type of objects belongs to. Given aliases come before the known
ones. -/
def service (aliases : List (String × String)) (objectType : String) : String :=
  let key := Text.lower objectType
  ((Fields.get? key aliases).or (Fields.get? key knownAliases)).getD key

end CallPlan.Naming
