import RdlExpressions.Runtime
import RdlExpressions.Syntax
import RdlExpressions.Bits
import RdlExpressions.GetValue
import RdlExpressions.PredictType
import RdlExpressions.Width
import RdlExpressions.Reduction
import RdlExpressions.Resolution
import RdlExpressions.Truncation
import RdlExpressions.Soundness
import RdlExpressions.InstRef
import RdlExpressions.Table
import RdlExpressions.Session
import RdlExpressions.Restoration
import RdlExpressions.Progress
import RdlExpressions.MissingChild
import RdlExpressions.MinWidth
